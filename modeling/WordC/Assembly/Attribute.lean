import WordC.Assembly.Type

namespace WordC.Assembly.Attribute

-- The words for what is promised about functions, and about what they take and yield.

def ofRoutines : List String :=
  ["alwaysinline", "builtin", "cold", "convergent", "coro_elide_safe", "coro_only_destroy_when_complete",
    "disable_sanitizer_instrumentation", "fn_ret_thunk_extern", "hot", "hybrid_patchable", "inlinehint",
    "jumptable", "minsize", "mustprogress", "naked", "nobuiltin", "nocallback", "nocf_check",
    "nodivergencesource", "noduplicate", "nofree", "noimplicitfloat", "noinline", "nomerge", "nonlazybind",
    "noprofile", "norecurse", "noredzone", "noreturn", "nosanitize_bounds", "nosanitize_coverage", "nosync",
    "nounwind", "null_pointer_is_valid", "optdebug", "optforfuzzing", "optnone", "optsize",
    "presplitcoroutine", "returns_twice", "safestack", "sanitize_address", "sanitize_hwaddress",
    "sanitize_memory", "sanitize_memtag", "sanitize_numerical_stability", "sanitize_realtime",
    "sanitize_realtime_blocking", "sanitize_thread", "sanitize_type", "shadowcallstack", "skipprofile",
    "speculatable", "speculative_load_hardening", "ssp", "sspreq", "sspstrong", "strictfp", "willreturn",
    "argmemonly", "inaccessiblememonly", "inaccessiblemem_or_argmemonly", "readnone", "readonly", "writeonly"]

def ofResults : List String := ["inreg", "noalias", "noext", "nonnull", "noundef", "signext", "zeroext"]

def ofParameters : List String :=
  ofResults ++ ["allocalign", "allocptr", "dead_on_unwind", "immarg", "nest", "nocapture", "nofree", "readnone",
    "readonly", "returned", "swiftasync", "swifterror", "swiftself", "writable", "writeonly"]

-- Words that a type in brackets goes with, and those that a number goes with.

def typed : List String := ["byref", "byval", "elementtype", "inalloca", "preallocated", "sret"]

def sized : List String := ["dereferenceable", "dereferenceable_or_null"]

-- Which words need a type of their own.

def ofPointers : List String :=
  ["noalias", "nocapture", "captures", "nonnull", "readnone", "readonly", "writable", "dead_on_unwind",
    "initializes", "nest", "swifterror", "allocptr"] ++ sized ++ typed

def ofIntegers : List String := ["signext", "zeroext", "noext", "allocalign"]

def fitsType (type : Ty) (word : String) : Bool :=
  if ofPointers.contains word then type.isPtr
  else if ofIntegers.contains word then type.isInt
  else if word = "align" then type.isPtrs
  else if word = "range" then type.isInts
  else if word = "nofpclass" then type.isReals || type.isAggregate
  else if word = "noundef" then type != .void
  else true

-- What is promised: a word, and the numbers that belong to it.
structure Promise where
  word : String
  numbers : List Nat := []

def holding (promises : List Promise) (word : String) : Bool := promises.any fun promise => promise.word = word

-- Words that do not go together.

def excluding : List (String × String) :=
  [("zeroext", "signext"), ("readnone", "readonly"), ("readnone", "writeonly"), ("readonly", "writeonly"),
    ("sret", "returned"), ("inalloca", "readonly"), ("byval", "sret"), ("byval", "nest"), ("byval", "byref"),
    ("byval", "inreg"), ("byval", "inalloca"), ("byval", "preallocated"), ("nest", "sret"), ("nest", "inreg"),
    ("nest", "byref"), ("nest", "inalloca"), ("inalloca", "sret"), ("inalloca", "inreg"), ("inalloca", "byref"),
    ("byref", "sret"), ("byref", "inreg"), ("writable", "readonly"), ("writable", "readnone")]

def ofRoutinesExcluding : List (String × String) :=
  [("alwaysinline", "noinline"), ("optnone", "optsize"), ("optnone", "minsize"), ("optnone", "optdebug"),
    ("optdebug", "optsize"), ("optdebug", "minsize"), ("sanitize_realtime", "sanitize_realtime_blocking")]

def together (pairs : List (String × String)) (promises : List Promise) : Bool :=
  pairs.all fun (a, b) => !(holding promises a && holding promises b)

-- What is promised about a value of a type. A range is one of numbers with as many bits.
def valueFits (type : Ty) (promises : List Promise) : Bool :=
  promises.all (fun promise => fitsType type promise.word
      && (promise.word ≠ "range" || promise.numbers = [type.lane.bits]))
    && together excluding promises

def isPowerOfTwo (n : Nat) : Bool := n ≠ 0 && n &&& (n - 1) = 0

-- Numbers in what is promised about a function: places of parameters that are whole numbers, or bounds of a scale.
def numbersFit (parameters : List Ty) (promise : Promise) : Bool :=
  match promise.word, promise.numbers with
  | "allocsize", numbers =>
    numbers.all (fun n => parameters[n]?.any Ty.isInt) && numbers.eraseDups.length = numbers.length
  | "vscale_range", [only] => isPowerOfTwo only
  | "vscale_range", [low, high] => isPowerOfTwo low && (high = 0 || (isPowerOfTwo high && low ≤ high))
  | _, _ => true

-- What is promised about a function. It is left alone only if it is never made a part of another.
def routineFits (parameters : List Ty) (promises : List Promise) : Bool :=
  together ofRoutinesExcluding promises && (!holding promises "optnone" || holding promises "noinline")
    && promises.all (numbersFit parameters)

end WordC.Assembly.Attribute
