import WordC.Assembly.Reader.Step

namespace WordC.Assembly.Reader

structure Linkage where
  word : Option String
  visibility : String
  storage : Option String

def linkages : List String :=
  ["private", "internal", "weak", "weak_odr", "linkonce", "linkonce_odr", "available_externally", "appending",
    "common", "external", "extern_weak"]

namespace Linkage

def isOne (linkage : Linkage) (words : List String) : Bool := linkage.word.any words.contains

-- Names that are seen nowhere else have nothing to say about how they are seen.
def isLocal (linkage : Linkage) : Bool := linkage.isOne ["private", "internal"]

-- Whether something with this linkage can be given elsewhere.
def isOutside (linkage : Linkage) : Bool := linkage.isOne ["external", "extern_weak"]

def fits (linkage : Linkage) (isDeclaration : Bool) : Bool :=
  let plain := linkage.visibility = "default"
  let imported := linkage.storage = some "dllimport"
  (!linkage.isLocal || (plain && linkage.storage.isNone))
    && (linkage.storage ≠ some "dllexport" || linkage.visibility ≠ "hidden")
    && (!imported || (plain && (isDeclaration || linkage.isOne ["available_externally"])))

end Linkage

def linkage : Reader Linkage := do
  let word ← oneOf? linkages
  let dso ← oneOf? ["dso_local", "dso_preemptable"]
  let visibility ← oneOf? ["default", "hidden", "protected"]
  let storage ← oneOf? ["dllimport", "dllexport"]
  require (dso ≠ some "dso_local" || storage ≠ some "dllimport")
  return ⟨word, visibility.getD "default", storage⟩

def unnamedWords : List String := ["unnamed_addr", "local_unnamed_addr"]

-- A global name is new. Numbers are given in order, and an empty name is none.
def globalId (given : Id) (space : Nat) : Reader Id := do
  let source := (← get).source
  let id : Id := if given = .named "" then .numbered source.unnamed else given
  require (!source.globals.contains id)
  match id with
  | .named _ => pure ()
  | .numbered n =>
    require (source.unnamed ≤ n)
    note fun source => { source with unnamed := n + 1 }
  note fun source => { source with spaces := (id, space) :: source.spaces }
  return id

-- Functions

def isOwnName (name : Id) : Bool :=
  match name with
  | .named name => !name.startsWith "llvm."
  | .numbered _ => true

-- One parameter: its register, its type, and what is promised about it.
structure Parameter where
  id : Id
  type : Ty
  promises : List Attribute.Promise

def parameter : Reader (Option Parameter) := do
  if ← took .dots then return none
  let own ← type
  let promises ← parameterWords
  require ((← types).isHeld own && own != .label && Attribute.valueFits own promises)
  match ← ahead? with
  | some (.register id) =>
    let _ ← word
    require (isShort id)
    return some ⟨← claim (some id), own, promises⟩
  | _ => return some ⟨← claim none, own, promises⟩

-- Some promises are made about one parameter only, and one is about the result as well.
def parametersFit (result : Ty) (all : List Parameter) : Bool :=
  let holding (word : String) : List Parameter := all.filter fun p => Attribute.holding p.promises word
  (["sret", "returned", "nest", "swiftself", "swifterror", "swiftasync"].all fun word => (holding word).length ≤ 1)
    && ((holding "sret").isEmpty || result == .void)
    && (all.drop 2).all (fun p => !Attribute.holding p.promises "sret")
    && (holding "returned").all (fun p => p.type == result)
    && all.dropLast.all (fun p => !Attribute.holding p.promises "inalloca")
    && (holding "immarg").isEmpty && (holding "elementtype").isEmpty

-- Types that only the functions of the backend itself take and yield.
def isPlainType : Ty → Bool
  | .metadata | .token | .tile => false
  | _ => true

-- The head of a function, up to what follows its parameters.
def routineHead (isDefinition : Bool) : Reader Routine := do
  let found ← linkage
  let allowed := if isDefinition then linkages.filter fun l => !(["extern_weak", "appending", "common"].contains l)
    else ["external", "extern_weak"]
  require (found.word.all allowed.contains && found.fits !isDefinition)
  let way ← convention
  let promises ← resultWords
  let result ← anyType
  require (result.isResult && Attribute.valueFits result promises)
  match ← word with
  | .global given =>
    modify fun s => { s with next := 0 }
    mark '('
    let all ← upTo ')' parameter
    require (all.dropLast.all Option.isSome)
    require (conventionFits way result (all.any Option.isNone))
    let parameters := all.filterMap id
    let unnamed ← oneOf? unnamedWords
    let space ← addressSpace
    let (attributes, groups) ← routineWords
    require (!Attribute.holding attributes "builtin")
    if ← tookOne ["section"] then
      let _ ← quoted
    if ← tookOne ["partition"] then
      let _ ← quoted
    let inComdat ← comdatUse given
    require (!inComdat || (isDefinition && !found.isOne ["available_externally"]))
    if ← tookOne ["align"] then alignmentNumber
    if ← tookOne ["gc"] then
      let _ ← quoted
    if ← tookOne ["prefix"] then
      let _ ← typedConstant
    if ← tookOne ["prologue"] then
      let _ ← typedConstant
    let hasPersonality ← tookOne ["personality"]
    if hasPersonality then
      let _ ← typedConstant
    require (isDefinition || !hasPersonality)
    let name ← globalId given space
    let own := isOwnName name
    require (!own || (parametersFit result parameters && isPlainType result
      && parameters.all fun p => isPlainType p.type))
    require (own || !isDefinition)
    require ((Builtin.ofId? name).all fun signature =>
      all.all Option.isSome && signature.fits result (parameters.map Parameter.type))
    return { id := name, result, parameters := parameters.map fun p => (p.id, p.type), attributes, groups,
             unnamed := unnamed = some "unnamed_addr", hasPersonality, blocks := [] }
  | _ => failure

def takeDown (routine : Routine) : Reader Unit :=
  note fun source => { source with routines := source.routines ++ [routine] }

def declaration : Reader Unit := do
  let _ ← collected attachment (← bound)
  takeDown (← routineHead false)

def definition : Reader Unit := do
  let head ← routineHead true
  let _ ← collected attachment (← bound)
  mark '\x7b'
  takeDown { head with blocks := ← blocks head.result (← bound) }

-- Variables

def threadLocal : Reader Unit := do
  if ← tookOne ["thread_local"] then
    if (← ahead?) = some (.mark '(') then
      let _ ← inBrackets (oneOf ["localdynamic", "initialexec", "localexec"])

-- What follows the value of a variable. Says whether it is in a comdat.
def variableEnd (id : Id) : Nat → Reader Bool
  | 0 => return false
  | fuel + 1 => do
    if !(← tookMark ',') then return false
    if ← tookOne ["align"] then
      alignmentNumber
      variableEnd id fuel
    else if ← tookOne ["section", "partition"] then
      let _ ← quoted
      variableEnd id fuel
    else if ← tookOne ["code_model"] then
      require (["tiny", "small", "kernel", "medium", "large"].contains (← quoted))
      variableEnd id fuel
    else if ← tookOne ["no_sanitize_address", "no_sanitize_hwaddress", "sanitize_memtag",
        "sanitize_address_dyninit"] then
      variableEnd id fuel
    else if (← attachment).isSome then variableEnd id fuel
    else
      require (← comdatUse id)
      let _ ← variableEnd id fuel
      return true

-- Lists that the backend knows by name are collected from all texts.
def collectedFits (id : Id) (isCollected : Bool) (type : Ty) : Bool :=
  match id, type with
  | .named "llvm.used", .array _ element | .named "llvm.compiler.used", .array _ element =>
    isCollected && element.isPtr
  | .named "llvm.global_ctors", .array _ element | .named "llvm.global_dtors", .array _ element =>
    isCollected && element == .struct false [.int 32, .ptr 0, .ptr 0]
  | .named name, _ =>
    !(["llvm.used", "llvm.compiler.used", "llvm.global_ctors", "llvm.global_dtors"].contains name)
  | _, _ => true

-- What a linkage asks of a variable with a value.
def valueFitsLinkage (found : Linkage) (constant inComdat : Bool) (type : Ty) (first : Value) : Bool :=
  (!found.isOne ["common"] || (first.isZero && !constant && !inComdat))
    && (!found.isOne ["appending"] || match type with
      | .array _ _ => true
      | _ => false)
    && !(inComdat && found.isOne ["available_externally"])

-- A global variable. One that is defined elsewhere has no value here.
def globalVariable (given : Id) (found : Linkage) : Reader Unit := do
  let space ← addressSpace
  let _ ← tookOne ["externally_initialized"]
  let constant := (← oneOf ["global", "constant"]) = "constant"
  let own ← type
  let first ← if found.isOutside then pure none else pure (some (← constantOf own))
  require (own.isPointee && match own with
    | .function _ _ _ => false
    | _ => true)
  let id ← globalId given space
  let inComdat ← variableEnd given (← bound)
  let _ ← routineWords
  require (found.fits first.isNone && !((← types).isScalable own))
  match first with
  | none => require !inComdat
  | some value =>
    require ((← types).isSized own && valueFitsLinkage found constant inComdat own value)
    require (collectedFits id (found.isOne ["appending"]) own)
  note fun source => { source with memory := source.memory ++ [⟨id, own, first⟩] }

-- Another name for a global. A computed place can stand without its type. A resolver is a function that yields what
-- the name stands for.
def otherName (given : Id) (found : Linkage) : Reader Unit := do
  let resolves := (← oneOf ["alias", "ifunc"]) = "ifunc"
  let own ← type
  mark ','
  let computed := match ← ahead? with
    | some (.letters spelled) => ["bitcast", "getelementptr", "addrspacecast", "inttoptr"].contains spelled
    | _ => false
  let target ← if computed then do
      match ← valueWithin 0 (← bound) with
      | .computed type base => pure (Typed.mk type (.computed type base))
      | _ => failure
    else typedConstant
  repeated (do
    if ← tookMark ',' then
      letters "partition"
      let _ ← quoted
      return true
    else return false) (← bound)
  require (found.word.all fun l => !(["appending", "common", "extern_weak", "available_externally"].contains l))
  require (target.type.isPtr && found.fits false && (own.isPointee || resolves))
  let pointing := match target.value with
    | .global _ | .computed _ _ => true
    | _ => false
  require pointing
  let id ← globalId given target.type.space
  note fun source => { source with
    aliases := ⟨id, baseOf target.value, found.isOne ["weak", "linkonce"], resolves⟩ :: source.aliases }

-- What a global name stands for, behind the equals sign.
def global (given : Id) : Reader Unit := do
  mark '='
  let found ← linkage
  threadLocal
  let _ ← tookOne unnamedWords
  match ← ahead? with
  | some (.letters "alias") | some (.letters "ifunc") => otherName given found
  | _ => globalVariable given found

-- Types

-- A type gets its name once. One with fields is no part of itself. The type behind the name of one without fields is
-- known from then on.
def typeDefinition (id : Id) : Reader Unit := do
  mark '='
  letters "type"
  let known := (← types).meaning? id
  let awaited := match known with
    | none | some .awaited => true
    | _ => false
  require awaited
  if ← tookOne ["opaque"] then
    note fun source => { source with types := source.types.define id .unknown }
  else
    let hasFields := (← ahead?) = some (.mark '\x7b')
      || (← get).words.take 2 = [.mark '<', .mark '\x7b']
    require (hasFields || known.isNone)
    if hasFields then
      note fun source => { source with types := source.types.define id .awaited }
      let packed ← tookMark '<'
      mark '\x7b'
      let fields ← fieldsWith type
      if packed then mark '>'
      require (!(← types).isPartOf id (.struct packed fields))
      note fun source => { source with types := source.types.define id (.struct packed fields) }
    else
      let own ← type
      require ((← types).meaning? id).isNone
      note fun source => { source with types := source.types.define id (.same own) }

-- The rest

def comdat (name : String) : Reader Unit := do
  mark '='
  letters "comdat"
  require (!(← get).source.comdats.contains name)
  let _ ← oneOf ["any", "exactmatch", "largest", "nodeduplicate", "samesize"]
  note fun source => { source with comdats := name :: source.comdats }

-- A group of words about functions. It is not empty.
def attributeGroup : Reader Unit := do
  match ← word with
  | .group n =>
    mark '='
    mark '\x7b'
    let promises ← collected (routineWord? true) (← bound)
    mark '\x7d'
    require (!promises.isEmpty)
    note fun source => { source with groups := (n, promises) :: source.groups }
  | _ => failure

-- Everything up to the bracket that closes so many.
def skipBrackets : (depth : Nat) → (fuel : Nat) → Reader Unit
  | 0, _ => return ()
  | _, 0 => failure
  | depth + 1, fuel + 1 => do
    match ← word with
    | .mark '(' => skipBrackets (depth + 2) fuel
    | .mark ')' => skipBrackets depth fuel
    | _ => skipBrackets (depth + 1) fuel

-- Summaries are for other tools, and passed over.
def summary : Reader Unit := do
  mark '='
  match ← word with
  | .label (.named kind) =>
    if ["gv", "module", "typeid"].contains kind then
      mark '('
      skipBrackets 1 (← bound)
    else
      require (["flags", "blockcount"].contains kind)
      let _ ← natural
  | _ => failure

-- Lines of the head: what the text is made from, and for which machine.
def heading : Nat → Reader Unit
  | 0 => failure
  | fuel + 1 => do
    if ← tookOne ["source_filename"] then
      mark '='
      let _ ← quoted
      heading fuel
    else if ← tookOne ["target"] then
      let isTriple := (← oneOf ["triple", "datalayout"]) = "triple"
      mark '='
      let text ← quoted
      if !isTriple then note fun source => { source with layout := text }
      heading fuel
    else return ()

def definitions : Nat → Reader Unit
  | 0 => failure
  | fuel + 1 => do
    match ← ahead? with
    | none => return ()
    | some first =>
      let _ ← word
      match first with
      | .letters "declare" => declaration
      | .letters "define" => definition
      | .letters "module" =>
        letters "asm"
        let _ ← quoted
      | .letters "attributes" => attributeGroup
      | .global id => global id
      | .register id => typeDefinition id
      | .comdat name => comdat name
      | .mark '!' => nodeDefinition
      | .metadata name => listDefinition name
      | .summary _ => summary
      | _ => failure
      definitions fuel

def source : Reader Source := do
  heading (← bound)
  definitions (← bound)
  return (← get).source

end WordC.Assembly.Reader

namespace WordC.Assembly

def read (text : List Char) : Option Source :=
  (words text).bind fun found => (Reader.source.run { words := found }).map Prod.fst

end WordC.Assembly
