import WordC.Assembly.Attribute
import WordC.Assembly.Reader.Value

namespace WordC.Assembly.Reader

open Attribute (Promise)

def isAlignment (n : Nat) : Bool := Attribute.isPowerOfTwo n && n ≤ 0x100000000

def alignmentNumber : Reader Unit := do require (isAlignment (← natural))

-- A quoted name that may have a value.
def tookQuoted : Reader Bool := do
  match ← ahead? with
  | some (.quoted _ _) =>
    let _ ← word
    if ← tookMark '=' then
      let _ ← quoted
    return true
  | _ => return false

-- Numbers in brackets, of which the second can be left out.
def oneOrTwo : Reader (List Nat) :=
  inBrackets (do
    let first ← count
    if ← tookMark ',' then return [first, ← count] else return [first])

-- Classes of numbers, by their words or by their bits.
def numberClasses : List String :=
  ["all", "nan", "snan", "qnan", "inf", "ninf", "pinf", "norm", "nnorm", "pnorm", "sub", "nsub", "psub", "zero",
    "nzero", "pzero"]

def classes : Reader Unit :=
  inBrackets (do
    match ← ahead? with
    | some (.number n) =>
      let _ ← word
      require (0 < n && n ≤ 1023)
    | _ =>
      let _ ← oneOf numberClasses
      repeated (tookOne numberClasses) (← bound))

-- Ways in which a pointer can be kept.
def captureWords : List String :=
  ["none", "address", "address_is_null", "provenance", "read_provenance"]

-- Two numbers that bound what is between them.
def interval (one : Reader Int) : Reader Unit := do
  let low ← one
  mark ','
  let high ← one
  require (low ≠ high)

-- What is promised about a value: one word, with what belongs to it.
def valueWord? (plain : List String) (isParameter : Bool) : Reader (Option Promise) := do
  if ← tookQuoted then return some { word := "" }
  let inParameter := fun words : List String => if isParameter then words else []
  if let some found ← oneOf? plain then return some { word := found }
  if let some found ← oneOf? ["align"] then
    if (← ahead?) = some (.mark '(') then inBrackets alignmentNumber else alignmentNumber
    return some { word := found }
  if let some found ← oneOf? Attribute.sized then
    let n ← inBrackets natural
    require (n ≠ 0)
    return some { word := found }
  if let some found ← oneOf? (inParameter Attribute.typed) then
    let own ← inBrackets type
    require (found = "elementtype" || (← types).isSized own)
    return some { word := found }
  if let some found ← oneOf? ["nofpclass"] then
    classes
    return some { word := found }
  if let some found ← oneOf? ["range"] then
    let own ← inBrackets (do
      let own ← type
      require own.isInt
      interval number
      return own)
    return some { word := found, numbers := [own.bits] }
  if let some found ← oneOf? (inParameter ["captures"]) then
    let _ ← inBrackets (separated (do
      if (← ahead?) = some (.label (.named "ret")) then
        let _ ← word
      oneOf captureWords))
    return some { word := found }
  if let some found ← oneOf? (inParameter ["initializes"]) then
    let _ ← inBrackets (separated (inBrackets (interval number)))
    return some { word := found }
  return none

def resultWords : Reader (List Promise) := do
  collected (valueWord? Attribute.ofResults false) (← bound)

def parameterWords : Reader (List Promise) := do
  collected (valueWord? Attribute.ofParameters true) (← bound)

-- What functions do with memory: with all of it first, then with each kind by itself.
def memoryWords : Reader Unit := do
  let kinds ← inBrackets (separated (do
    let kind ← match ← ahead? with
      | some (.label (.named kind)) => do
        let _ ← word
        require (["argmem", "inaccessiblemem", "errnomem"].contains kind)
        pure true
      | _ => pure false
    let _ ← oneOf ["none", "read", "write", "readwrite"]
    return kind))
  require ((kinds.drop 1).all id)

-- Ways to get memory, as they are written in one text.
def allocationKinds : List String := ["alloc", "realloc", "free", "uninitialized", "zeroed", "aligned"]

-- What is promised about a function: one word, with what belongs to it. In a group, numbers are given behind a sign.
def routineWord? (inGroup : Bool) : Reader (Option Promise) := do
  if ← tookQuoted then return some { word := "" }
  if let some found ← oneOf? Attribute.ofRoutines then return some { word := found }
  if let some found ← oneOf? ["align"] then
    if inGroup then mark '='
    alignmentNumber
    return some { word := found }
  if let some found ← oneOf? ["alignstack"] then
    if inGroup then
      mark '='
      alignmentNumber
    else inBrackets alignmentNumber
    return some { word := found }
  if let some found ← oneOf? ["allocsize", "vscale_range"] then
    return some { word := found, numbers := ← oneOrTwo }
  if let some found ← oneOf? ["allockind"] then
    let kinds := (← inBrackets quoted).splitOn ","
    require (kinds.all allocationKinds.contains)
    return some { word := found }
  if let some found ← oneOf? ["memory"] then
    memoryWords
    return some { word := found }
  if let some found ← oneOf? ["uwtable"] then
    if (← ahead?) = some (.mark '(') then
      let _ ← inBrackets (oneOf ["sync", "async"])
    return some { word := found }
  if let some found ← oneOf? ["preallocated"] then
    let _ ← inBrackets type
    return some { word := found }
  return none

-- The words about a function, and the groups of words that it refers to.
def routineWords : Reader (List Promise × List Nat) := do
  let found ← collected (do
    match ← ahead? with
    | some (.group n) =>
      let _ ← word
      return some (Sum.inr n)
    | _ => return (← routineWord? false).map Sum.inl) (← bound)
  return (found.filterMap Sum.getLeft?, found.filterMap Sum.getRight?)

-- Conventions for calls

def conventions : List String :=
  ["ccc", "fastcc", "coldcc", "cfguard_checkcc", "x86_stdcallcc", "x86_fastcallcc", "x86_regcallcc",
    "x86_thiscallcc", "x86_vectorcallcc", "arm_apcscc", "arm_aapcscc", "arm_aapcs_vfpcc", "aarch64_vector_pcs",
    "aarch64_sve_vector_pcs", "msp430_intrcc", "avr_intrcc", "avr_signalcc", "ptx_kernel", "ptx_device",
    "spir_kernel", "spir_func", "intel_ocl_bicc", "x86_64_sysvcc", "win64cc", "anyregcc", "preserve_mostcc",
    "preserve_allcc", "preserve_nonecc", "ghccc", "swiftcc", "swifttailcc", "x86_intrcc", "hhvmcc", "hhvm_ccc",
    "cxx_fast_tlscc", "amdgpu_kernel", "tailcc", "m68k_rtdcc", "graalcc", "riscv_vector_cc"]

-- Conventions that know the number of arguments.
def countingConventions : List String :=
  ["fastcc", "coldcc", "intel_ocl_bicc", "ptx_kernel", "ptx_device", "spir_kernel", "spir_func", "amdgpu_kernel"]

def resultlessConventions : List String := ["spir_kernel", "amdgpu_kernel"]

def convention : Reader (Option String) := do
  if ← tookOne ["cc"] then
    let n ← count
    require (n ≤ 1023)
    return none
  else oneOf? conventions

def conventionFits (convention : Option String) (result : Ty) (more : Bool) : Bool :=
  !(more && convention.any countingConventions.contains)
    && (result == .void || !convention.any resultlessConventions.contains)

-- A group of functions and variables that are kept or dropped together. It can have the name of its only member.
def comdatUse (own : Id) : Reader Bool := do
  if !(← tookOne ["comdat"]) then return false
  let name ← if (← ahead?) = some (.mark '(') then
      inBrackets (do
        match ← word with
        | .comdat name => return name
        | _ => failure)
    else match own with
      | .named name => pure name
      | .numbered _ => failure
  note fun source => { source with comdatsUsed := name :: source.comdatsUsed }
  return true

end WordC.Assembly.Reader
