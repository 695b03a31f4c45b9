import WordC.Assembly.Type

namespace WordC.Assembly.Builtin

-- What stands in the signature of a function of the backend itself. Its own type differs from call to call.
inductive Slot where
  | exactly (type : Ty)
  | own
  | ownFlags
  | anyInt

-- Which types a function of the backend is there for.
inductive Family where
  | ints
  | reals
  | none

structure Signature where
  family : Family
  result : List Slot
  parameters : List Slot
  constants : List Nat := []

def isIn : Family → Ty → Bool
  | .ints, type => type.isInts
  | .reals, type => type.isReals
  | .none, _ => true

-- The own type of a call, by the first place where it stands.
def ownType? (slots : List Slot) (types : List Ty) : Option Ty :=
  (slots.zip types).findSome? fun (slot, type) => match slot with
    | .own => some type
    | _ => none

def slotFits (own : Option Ty) (slot : Slot) (type : Ty) : Bool :=
  match slot with
  | .exactly wanted => wanted == type
  | .own => own.any (· == type)
  | .ownFlags => own.any fun own => (Ty.int 1).withLanes own.lanes? == type
  | .anyInt => type.isInt

def resultFits (own : Option Ty) (slots : List Slot) (result : Ty) : Bool :=
  match slots, result with
  | [], .void => true
  | [slot], type => slotFits own slot type
  | slots, .struct false fields =>
    slots.length = fields.length && (slots.zip fields).all fun (slot, type) => slotFits own slot type
  | _, _ => false

def Signature.fits (signature : Signature) (result : Ty) (parameters : List Ty) : Bool :=
  let own := (ownType? signature.parameters parameters)
  own.all (isIn signature.family) && resultFits own signature.result result
    && signature.parameters.length = parameters.length
    && (signature.parameters.zip parameters).all fun (slot, type) => slotFits own slot type

def place : Slot := .exactly (.ptr 0)

def flag : Slot := .exactly (.int 1)

def realsOf (count : Nat) : Signature := ⟨.reals, [.own], List.replicate count .own, []⟩

def intsOf (count : Nat) : Signature := ⟨.ints, [.own], List.replicate count .own, []⟩

-- Numbers with a flag that is known beforehand.
def flaggedInts : Signature := ⟨.ints, [.own], [.own, flag], [1]⟩

def overflowing : Signature := ⟨.ints, [.own, .ownFlags], [.own, .own], []⟩

def copying : Signature := ⟨.none, [], [place, place, .anyInt, flag], [3]⟩

def table : List (List String × Signature) :=
  [(["sqrt", "sin", "cos", "exp", "exp2", "log", "log2", "log10", "fabs", "floor", "ceil", "trunc", "rint",
      "nearbyint", "round", "roundeven", "canonicalize"], realsOf 1),
    (["pow", "minnum", "maxnum", "minimum", "maximum", "copysign"], realsOf 2),
    (["fma", "fmuladd"], realsOf 3),
    (["ctpop", "bswap", "bitreverse"], intsOf 1),
    (["smax", "smin", "umax", "umin", "sadd.sat", "uadd.sat", "ssub.sat", "usub.sat", "expect"], intsOf 2),
    (["fshl", "fshr"], intsOf 3),
    (["abs", "ctlz", "cttz"], flaggedInts),
    (["sadd.with.overflow", "uadd.with.overflow", "ssub.with.overflow", "usub.with.overflow",
      "smul.with.overflow", "umul.with.overflow"], overflowing),
    (["memcpy", "memmove"], copying),
    (["memset"], ⟨.none, [], [place, .exactly (.int 8), .anyInt, flag], [3]⟩),
    (["trap", "debugtrap", "donothing"], ⟨.none, [], [], []⟩),
    (["assume"], ⟨.none, [], [flag], []⟩),
    (["ubsantrap"], ⟨.none, [], [.exactly (.int 8)], [0]⟩),
    (["readcyclecounter"], ⟨.none, [.exactly (.int 64)], [], []⟩),
    (["returnaddress", "frameaddress"], ⟨.none, [place], [.exactly (.int 32)], [0]⟩),
    (["stacksave"], ⟨.none, [place], [], []⟩),
    (["stackrestore", "va_start", "va_end"], ⟨.none, [], [place], []⟩),
    (["va_copy"], ⟨.none, [], [place, place], []⟩)]

-- Types can follow the name behind a point.
def signature? (name : String) : Option Signature :=
  let named (base : String) : Bool :=
    let whole := "llvm." ++ base
    name = whole || name.startsWith (whole ++ ".")
  (table.find? fun entry => entry.1.any named).map Prod.snd

def ofId? : Id → Option Signature
  | .named name => signature? name
  | .numbered _ => none

end WordC.Assembly.Builtin
