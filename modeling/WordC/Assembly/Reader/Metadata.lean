import WordC.Assembly.Reader.Value

namespace WordC.Assembly.Reader

-- What a field of a node that is laid down can hold.
inductive Content where
  | text
  | number
  | signed
  | truth
  | node
  | word
  | list

structure Field where
  name : String
  content : Content
  needed : Bool := false

def optionalFields (content : Content) (names : List String) : List Field :=
  names.map fun name => { name, content }

def neededField (name : String) (content : Content) : Field := { name, content, needed := true }

-- The kinds of nodes that are laid down, with their fields.
def fieldsOf? (kind : String) : Option (List Field) :=
  match kind with
  | "DILocation" => some (optionalFields .number ["line", "column", "atomGroup", "atomRank"]
      ++ [neededField "scope" .node] ++ optionalFields .node ["inlinedAt"] ++ optionalFields .truth ["isImplicitCode"])
  | "GenericDINode" => some ([neededField "tag" .word] ++ optionalFields .text ["header"]
      ++ optionalFields .list ["operands"])
  | "DISubrange" => some (["count", "lowerBound", "upperBound", "stride"].map fun name =>
      { name, content := .signed })
  | "DIEnumerator" => some ([neededField "name" .text, neededField "value" .signed]
      ++ optionalFields .truth ["isUnsigned"])
  | "DIBasicType" => some (optionalFields .word ["tag", "encoding", "flags"] ++ optionalFields .text ["name"]
      ++ optionalFields .number ["size", "align", "num_extra_inhabitants"])
  | "DIDerivedType" => some ([neededField "tag" .word, neededField "baseType" .node]
      ++ optionalFields .text ["name"] ++ optionalFields .node ["file", "scope", "extraData", "annotations"]
      ++ optionalFields .number ["line", "size", "align", "offset", "dwarfAddressSpace", "ptrAuthKey"]
      ++ optionalFields .word ["flags"])
  | "DICompositeType" => some ([neededField "tag" .word] ++ optionalFields .text ["name", "identifier"]
      ++ optionalFields .node ["file", "scope", "baseType", "elements", "vtableHolder", "templateParams",
        "discriminator", "dataLocation", "associated", "allocated", "rank", "annotations", "specification"]
      ++ optionalFields .number ["line", "size", "align", "offset", "num_extra_inhabitants"]
      ++ optionalFields .word ["flags", "runtimeLang"])
  | "DISubroutineType" => some ([neededField "types" .node] ++ optionalFields .word ["flags", "cc"])
  | "DIFile" => some ([neededField "filename" .text, neededField "directory" .text]
      ++ optionalFields .word ["checksumkind"] ++ optionalFields .text ["checksum", "source"])
  | "DICompileUnit" => some ([neededField "language" .word, neededField "file" .node]
      ++ optionalFields .text ["producer", "flags", "splitDebugFilename", "sysroot", "sdk"]
      ++ optionalFields .truth ["isOptimized", "splitDebugInlining", "debugInfoForProfiling", "rangesBaseAddress"]
      ++ optionalFields .number ["runtimeVersion", "dwoId"] ++ optionalFields .word ["emissionKind", "nameTableKind"]
      ++ optionalFields .node ["enums", "retainedTypes", "globals", "imports", "macros"])
  | "DISubprogram" => some (optionalFields .node ["scope", "file", "type", "containingType", "unit",
        "templateParams", "declaration", "retainedNodes", "thrownTypes", "annotations"]
      ++ optionalFields .text ["name", "linkageName", "targetFuncName"]
      ++ optionalFields .number ["line", "scopeLine", "virtualIndex"] ++ optionalFields .signed ["thisAdjustment"]
      ++ optionalFields .word ["flags", "spFlags", "virtuality"]
      ++ optionalFields .truth ["isLocal", "isDefinition", "isOptimized"])
  | "DILexicalBlock" => some ([neededField "scope" .node] ++ optionalFields .node ["file"]
      ++ optionalFields .number ["line", "column"])
  | "DINamespace" => some ([neededField "scope" .node] ++ optionalFields .text ["name"]
      ++ optionalFields .truth ["exportSymbols"])
  | "DIGlobalVariable" => some ([neededField "name" .text] ++ optionalFields .text ["linkageName"]
      ++ optionalFields .node ["scope", "file", "type", "templateParams", "declaration", "annotations"]
      ++ optionalFields .number ["line", "align"] ++ optionalFields .truth ["isLocal", "isDefinition"])
  | "DILocalVariable" => some ([neededField "scope" .node] ++ optionalFields .text ["name"]
      ++ optionalFields .node ["file", "type", "annotations"] ++ optionalFields .number ["arg", "line", "align"]
      ++ optionalFields .word ["flags"])
  | "DIGlobalVariableExpression" => some [neededField "var" .node, neededField "expr" .node]
  | "DIAssignID" => some []
  | _ => none

def useNode : Reader Nat := do
  let n ← count
  note fun source => { source with nodesUsed := n :: source.nodesUsed }
  return n

-- One word or several, or a number in their place.
def contentWords : Reader Unit := do
  let one : Reader Unit := do
    match ← word with
    | .letters _ => return ()
    | .number n => require (0 ≤ n)
    | _ => failure
  one
  repeated (do
    if ← tookMark '|' then
      one
      return true
    else return false) (← bound)

def contentWith (node : Reader Unit) : Content → Reader Unit
  | .text => do
    let _ ← quoted
  | .number => do
    match ← ahead? with
    | some (.number _) =>
      let _ ← natural
    | _ => node
  | .signed => do
    match ← ahead? with
    | some (.number _) =>
      let _ ← number
    | _ => node
  | .truth => do
    let _ ← oneOf ["true", "false"]
  | .node => do
    if !(← tookOne ["null"]) then node
  | .word => contentWords
  | .list => do
    mark '\x7b'
    let _ ← upTo '\x7d' (do if !(← tookOne ["null"]) then node)

-- Some nodes are never shared with others like them, unless their fields say otherwise.
def isShared (kind : String) (given : List String) : Bool :=
  match kind with
  | "DICompileUnit" | "DIAssignID" => false
  | "DISubprogram" => given.contains "spFlags" || given.contains "isDefinition"
  | _ => true

-- A node that is laid down, behind its kind. Every field stands there once at most.
def specialWith (node : Reader Unit) (distinct : Bool) (kind : String) : Reader Unit := do
  mark '('
  if kind = "DIExpression" || kind = "DIArgList" then
    let _ ← upTo ')' (if kind = "DIArgList" then node else contentWords)
    require !distinct
  else
    let known ← orFail (fieldsOf? kind)
    let given ← upTo ')' (do
      match ← word with
      | .label (.named name) =>
        let field ← orFail (known.find? fun field => field.name = name)
        contentWith node field.content
        return name
      | _ => failure)
    require (given.eraseDups.length = given.length)
    require (known.all fun field => !field.needed || given.contains field.name)
    require (given.contains "checksumkind" = given.contains "checksum")
    require (distinct || isShared kind given)

-- An item of a node, or what stands for a node in other places.
def itemWithin : Nat → Reader Item
  | 0 => failure
  | fuel + 1 => do
    let node : Reader Unit := do
      let _ ← itemWithin fuel
    match ← ahead? with
    | some (.metadata kind) =>
      let _ ← word
      specialWith node false kind
      return .other
    | some (.mark '!') =>
      let _ ← word
      match ← ahead? with
      | some (.quoted text _) =>
        let _ ← word
        return .text text
      | some (.mark '\x7b') =>
        let _ ← word
        let _ ← upTo '\x7d' (do if !(← tookOne ["null"]) then node)
        return .other
      | _ => return .node (← useNode)
    | _ =>
      let operand ← typedValue
      require (operand.type != .metadata)
      return .value operand

def item : Reader Item := do itemWithin (← bound)

-- Only constants stand in nodes by themselves.
def constantItem : Reader Item := do
  if ← tookOne ["null"] then return .other
  match ← item with
  | .value operand =>
    require operand.value.isConstant
    return .value operand
  | found => return found

def attachedNode : Reader (Option Nat) := do
  match ← item with
  | .node n => return some n
  | .other => return none
  | _ => failure

def nodeDefinition : Reader Unit := do
  let n ← count
  mark '='
  let distinct ← tookOne ["distinct"]
  let found ← match ← word with
    | .metadata kind => do
      specialWith (do
        let _ ← item) distinct kind
      pure (Node.special kind)
    | .mark '!' => do
      mark '\x7b'
      pure (Node.items (← upTo '\x7d' constantItem))
    | _ => failure
  require (!(← get).source.nodes.any fun entry => entry.1 = n)
  note fun source => { source with nodes := (n, found) :: source.nodes }

def listDefinition (name : String) : Reader Unit := do
  mark '='
  mark '!'
  mark '\x7b'
  let nodes ← upTo '\x7d' (do
    mark '!'
    useNode)
  note fun source => { source with lists := (name, nodes) :: source.lists }

-- A node that is attached to a global, behind its kind.
def attachment : Reader (Option (String × Option Nat)) := do
  match ← ahead? with
  | some (.metadata kind) =>
    let _ ← word
    return some (kind, ← attachedNode)
  | _ => return none

end WordC.Assembly.Reader
