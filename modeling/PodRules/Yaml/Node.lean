import PodRules.Yaml.Token

namespace PodRules.Yaml

inductive Node where
  | alias (number : Nat)
  | scalar (anchored : Bool) (tag : Option String) (plain : Bool) (text : String)
  | sequence (anchored : Bool) (tag : Option String) (items : List Node)
  | mapping (anchored : Bool) (tag : Option String) (entries : List (Node × Node))
  deriving Inhabited

structure Document where
  root : Node
  places : List (Nat × Nat)

structure Feed where
  tokens : List Token
  /-- The stems of the handles of tags. -/
  handles : List (String × String)
  /-- The alias numbers of the names of anchors. -/
  names : List (String × Nat)
  places : List (Nat × Nat)
  /-- How many anchored nodes have begun. -/
  anchored : Nat

abbrev Reading := StateT Feed Option

namespace Feed

def peek : Reading Token := do
  match (← get).tokens with
  | t :: _ => pure t
  | [] => failure

def skip : Reading PUnit := modify fun f => { f with tokens := f.tokens.drop 1 }

def take : Reading Token := do
  let t ← peek
  skip
  pure t

/-- Gives the next node a name. A new name takes the next number. A known name gets the number of
the names so far, which the next new name gets as well. -/
def anchor (name : String) : Reading PUnit :=
  modify fun f =>
    let number := f.names.length
    let names :=
      if (f.names.lookup name).isSome then
        f.names.map fun n => if n.1 = name then (name, number) else n
      else (name, number) :: f.names
    { f with names, places := (number, f.anchored) :: f.places, anchored := f.anchored + 1 }

def aliasNode (name : String) : Reading Node := do
  match (← get).names.lookup name with
  | some number => pure (.alias number)
  | none => failure

def tagText (handle suffix : String) : Reading String := do
  if handle = "" then pure suffix
  else
    match (← get).handles.lookup handle with
    | some stem => pure (stem ++ suffix)
    | none => failure

end Feed

structure Properties where
  anchor : Option String
  tag : Option String

def tagProperty : Reading (Option String) := do
  match ← Feed.peek with
  | .tag handle suffix => do
    Feed.skip
    let t ← Feed.tagText handle suffix
    pure (some t)
  | _ => pure none

def anchorProperty : Reading (Option String) := do
  match ← Feed.peek with
  | .anchor name => do
    Feed.skip
    pure (some name)
  | _ => pure none

def properties : Reading Properties := do
  match ← anchorProperty with
  | some name => do
    let tag ← tagProperty
    pure ⟨some name, tag⟩
  | none => do
    let tag ← tagProperty
    match tag with
    | some t => do
      let anchor ← anchorProperty
      pure ⟨anchor, some t⟩
    | none => pure ⟨none, none⟩

def emptyNode : Node := .scalar false none true ""

def before (ends : List Token) : Reading Bool := do
  let t ← Feed.peek
  pure (decide (t ∈ ends))

mutual

/-- A node. In block context it may be a block collection, and where a mapping allows it a sequence
that is not indented. The first argument bounds the recursion by the number of tokens. -/
def node : (fuel : Nat) → (block indentless : Bool) → Reading Node
  | 0, _, _ => failure
  | fuel + 1, block, indentless => do
    match ← Feed.peek with
    | .alias name => do
      Feed.skip
      Feed.aliasNode name
    | _ => do
      let p ← properties
      if let some name := p.anchor then Feed.anchor name
      let anchored := p.anchor.isSome
      match ← Feed.peek with
      | .scalar plain text => do
        Feed.skip
        pure (.scalar anchored p.tag plain text)
      | .item =>
        if indentless then do
          let items ← indentlessItems fuel
          pure (.sequence anchored p.tag items)
        else if anchored || p.tag.isSome then pure (.scalar anchored p.tag true "")
        else failure
      | .flowSequence => do
        Feed.skip
        let items ← flowItems fuel true
        pure (.sequence anchored p.tag items)
      | .flowMapping => do
        Feed.skip
        let entries ← flowEntries fuel true
        pure (.mapping anchored p.tag entries)
      | .blockSequence =>
        if block then do
          Feed.skip
          let items ← blockItems fuel
          pure (.sequence anchored p.tag items)
        else if anchored || p.tag.isSome then pure (.scalar anchored p.tag true "")
        else failure
      | .blockMapping =>
        if block then do
          Feed.skip
          let entries ← blockEntries fuel
          pure (.mapping anchored p.tag entries)
        else if anchored || p.tag.isSome then pure (.scalar anchored p.tag true "")
        else failure
      | _ =>
        if anchored || p.tag.isSome then pure (.scalar anchored p.tag true "")
        else failure

def blockItems : Nat → Reading (List Node)
  | 0 => failure
  | fuel + 1 => do
    match ← Feed.take with
    | .item => do
      let item ← if ← before [.item, .blockEnd] then pure emptyNode else node fuel true false
      let items ← blockItems fuel
      pure (item :: items)
    | .blockEnd => pure []
    | _ => failure

def indentlessItems : Nat → Reading (List Node)
  | 0 => failure
  | fuel + 1 => do
    match ← Feed.peek with
    | .item => do
      Feed.skip
      let item ← if ← before [.item, .key, .value, .blockEnd] then pure emptyNode
        else node fuel true false
      let items ← indentlessItems fuel
      pure (item :: items)
    | _ => pure []

def blockEntries : Nat → Reading (List (Node × Node))
  | 0 => failure
  | fuel + 1 => do
    match ← Feed.take with
    | .key => do
      let key ← if ← before [.key, .value, .blockEnd] then pure emptyNode else node fuel true true
      let value ← blockValue fuel
      let entries ← blockEntries fuel
      pure ((key, value) :: entries)
    | .blockEnd => pure []
    | _ => failure

def blockValue : Nat → Reading Node
  | 0 => failure
  | fuel + 1 => do
    match ← Feed.peek with
    | .value => do
      Feed.skip
      if ← before [.key, .value, .blockEnd] then pure emptyNode else node fuel true true
    | _ => pure emptyNode

def flowItems : Nat → (first : Bool) → Reading (List Node)
  | 0, _ => failure
  | fuel + 1, first => do
    if ← before [.flowSequenceEnd] then do
      Feed.skip
      pure []
    else do
      if !first then
        match ← Feed.take with
        | .comma => pure ()
        | _ => failure
      match ← Feed.peek with
      | .flowSequenceEnd => do
        Feed.skip
        pure []
      | .key => do
        Feed.skip
        let entry ← flowPair fuel
        let items ← flowItems fuel false
        pure (.mapping false none [entry] :: items)
      | _ => do
        let item ← node fuel false false
        let items ← flowItems fuel false
        pure (item :: items)

/-- The only entry of a mapping within a flow sequence. A key that is left out takes up the token
in its place. -/
def flowPair : Nat → Reading (Node × Node)
  | 0 => failure
  | fuel + 1 => do
    let key ← if ← before [.value, .comma, .flowSequenceEnd] then do
        Feed.skip
        pure emptyNode
      else node fuel false false
    let value ← flowValue fuel .flowSequenceEnd
    pure (key, value)

def flowEntries : Nat → (first : Bool) → Reading (List (Node × Node))
  | 0, _ => failure
  | fuel + 1, first => do
    if ← before [.flowMappingEnd] then do
      Feed.skip
      pure []
    else do
      if !first then
        match ← Feed.take with
        | .comma => pure ()
        | _ => failure
      match ← Feed.peek with
      | .flowMappingEnd => do
        Feed.skip
        pure []
      | .key => do
        Feed.skip
        let key ← if ← before [.value, .comma, .flowMappingEnd] then pure emptyNode
          else node fuel false false
        let value ← flowValue fuel .flowMappingEnd
        let entries ← flowEntries fuel false
        pure ((key, value) :: entries)
      | _ => do
        let key ← node fuel false false
        let entries ← flowEntries fuel false
        pure ((key, emptyNode) :: entries)

def flowValue : Nat → (close : Token) → Reading Node
  | 0, _ => failure
  | fuel + 1, close => do
    match ← Feed.peek with
    | .value => do
      Feed.skip
      if ← before [.comma, close] then pure emptyNode else node fuel false false
    | _ => pure emptyNode

end

/-! ## Documents -/

def addHandle? (hs : List (String × String)) (name stem : String) :
    Option (List (String × String)) :=
  if (hs.lookup name).isSome then none else some ((name, stem) :: hs)

def directives : Nat → (versioned : Bool) → List (String × String) →
    Reading (List (String × String))
  | 0, _, _ => failure
  | fuel + 1, versioned, handles => do
    match ← Feed.peek with
    | .version major minor =>
      if versioned || major ≠ 1 || (minor ≠ 1 && minor ≠ 2) then failure
      else do
        Feed.skip
        directives fuel true handles
    | .handle name stem =>
      match addHandle? handles name stem with
      | some handles => do
        Feed.skip
        directives fuel versioned handles
      | none => failure
    | _ => pure handles

def standardHandles : List (String × String) := [("!", "!"), ("!!", "tag:yaml.org,2002:")]

def beginDocument (handles : List (String × String)) : Reading PUnit :=
  modify fun f =>
    { f with handles := handles ++ standardHandles, names := [], places := [], anchored := 0 }

def finishDocument (root : Node) : Reading Document := do
  let places := (← get).places
  if ← before [.documentEnd] then Feed.skip
  pure ⟨root, places⟩

def isBoundary : Token → Bool
  | .version _ _ => true
  | .handle _ _ => true
  | .documentStart => true
  | .documentEnd => true
  | .streamEnd => true
  | _ => false

def markedDocument (fuel : Nat) : Reading Document := do
  let handles ← directives fuel false []
  beginDocument handles
  match ← Feed.take with
  | .documentStart => do
    let root ← if isBoundary (← Feed.peek) then pure emptyNode else node fuel true false
    finishDocument root
  | _ => failure

def markedDocuments : Nat → Reading (List Document)
  | 0 => failure
  | fuel + 1 => do
    match ← Feed.peek with
    | .documentEnd => do
      Feed.skip
      markedDocuments fuel
    | .streamEnd => pure []
    | _ => do
      let d ← markedDocument fuel
      let ds ← markedDocuments fuel
      pure (d :: ds)

def documents (fuel : Nat) : Reading (List Document) := do
  match ← Feed.peek with
  | .streamEnd => pure []
  | .version _ _ => markedDocuments fuel
  | .handle _ _ => markedDocuments fuel
  | .documentStart => markedDocuments fuel
  | _ => do
    beginDocument []
    let root ← node fuel true false
    let d ← finishDocument root
    let ds ← markedDocuments fuel
    pure (d :: ds)

def documents? (tokens : List Token) : Option (List Document) :=
  ((documents (3 * tokens.length + 3)).run ⟨tokens, [], [], [], 0⟩).map (·.1)

end PodRules.Yaml
