import Federation.Yaml.Token

/-!
# YAML nodes

The tree of a YAML document. Tokens are read by recursive descent: block collections and flow collections
nest in each other, a missing key or value is a null scalar, and an alias stands for a node that was anchored
before it. A text counts only if all of it is well-formed and it holds exactly one document.
-/

namespace Federation.Yaml

/-- A node of a document; an alias names the anchored node by its number. -/
inductive Node where
  | scalar (style : ScalarStyle) (tag : Option Tag) (text : List Char)
  | sequence (items : List Node)
  | mapping (entries : List (Node × Node))
  | reference (anchor : Nat)

instance : Inhabited Node := ⟨.sequence []⟩

/-- A document: its root and the anchored nodes by number. -/
structure Document where
  root : Node
  anchored : List (Nat × Node)

/-- What a reader of nodes has before it and remembers. -/
structure Reading where
  tokens : List Token
  /-- The numbers of the anchors, the latest first. -/
  names : List (List Char × Nat)
  anchored : List (Nat × Node)

/-- A step of reading nodes; `none` is a fault of the text. -/
abbrev NodeReader (α : Type) := StateT Reading Option α

namespace NodeReader

/-- The next token. -/
def peek : NodeReader (Option Token) := do return (← get).tokens.head?

/-- Past the next token. -/
def skip : NodeReader Unit := modify fun s => { s with tokens := s.tokens.tail }

/-- A fault. -/
def fault {α : Type} : NodeReader α := fun _ => none

/-- What stands where nothing is written. -/
def missing : Node := .scalar .plain none ['~']

/-- Whether the next token is one of some. -/
def nextIsOneOf (ts : List Token) : NodeReader Bool := do
  match ← peek with
  | some t => pure (ts.contains t)
  | none => pure false

/-- Skips the next token if it is this one. -/
def skipIf (t : Token) : NodeReader Bool := do
  if ← nextIsOneOf [t] then
    skip
    pure true
  else pure false

/-- Gives an anchor a number. -/
def register (name : List Char) : NodeReader Nat := do
  let s ← get
  let n := s.names.length
  set { s with names := (name, n) :: s.names }
  pure n

/-- Remembers the node of an anchor. -/
def bindAnchor (number : Option Nat) (n : Node) : NodeReader Node := do
  match number with
  | some k => modify fun s => { s with anchored := (k, n) :: s.anchored }
  | none => pure ()
  pure n

/-- An anchor and a tag before a node, in either order. -/
def properties : NodeReader (Option Nat × Option Tag) := do
  match ← peek with
  | some (.anchor name) =>
    skip
    let k ← register name
    match ← peek with
    | some (.tag t) =>
      skip
      pure (some k, some t)
    | _ => pure (some k, none)
  | some (.tag t) =>
    skip
    match ← peek with
    | some (.anchor name) =>
      skip
      let k ← register name
      pure (some k, some t)
    | _ => pure (none, some t)
  | _ => pure (none, none)

/-- A node of which only the anchor or the tag is written. -/
def unwritten (number : Option Nat) (tag : Option Tag) : NodeReader Node :=
  if number.isSome || tag.isSome then bindAnchor number (.scalar .plain tag []) else fault

mutual

/-- A node. In block context block collections may begin, and where a mapping's value is expected also a
sequence that is not indented. -/
def node : (fuel : Nat) → (block indentless : Bool) → NodeReader Node
  | 0, _, _ => fault
  | fuel + 1, block, indentless => do
    match ← peek with
    | some (.reference name) =>
      skip
      match (← get).names.find? (·.1 == name) with
      | some (_, k) => pure (.reference k)
      | none => fault
    | _ =>
      let (number, tag) ← properties
      match ← peek with
      | some .blockEntry =>
        if indentless then bindAnchor number (.sequence (← looseItems fuel))
        else unwritten number tag
      | some (.scalar style text) =>
        skip
        bindAnchor number (.scalar style tag text)
      | some .flowSequenceStart =>
        skip
        bindAnchor number (.sequence (← flowItems fuel true))
      | some .flowMappingStart =>
        skip
        bindAnchor number (.mapping (← flowEntries fuel true))
      | some .blockSequenceStart =>
        if block then
          skip
          bindAnchor number (.sequence (← blockItems fuel))
        else unwritten number tag
      | some .blockMappingStart =>
        if block then
          skip
          bindAnchor number (.mapping (← blockEntries fuel))
        else unwritten number tag
      | _ => unwritten number tag

/-- A node, unless one of some tokens comes instead of it. -/
def nodeUnless : (fuel : Nat) → (stops : List Token) → (block indentless : Bool) → NodeReader Node
  | 0, _, _, _ => fault
  | fuel + 1, stops, block, indentless => do
    if ← nextIsOneOf stops then pure missing else node fuel block indentless

/-- The items of a block sequence. -/
def blockItems : (fuel : Nat) → NodeReader (List Node)
  | 0 => fault
  | fuel + 1 => do
    match ← peek with
    | some .blockEntry =>
      skip
      let n ← nodeUnless fuel [.blockEntry, .blockEnd] true false
      return n :: (← blockItems fuel)
    | some .blockEnd =>
      skip
      pure []
    | _ => fault

/-- The items of a sequence at the indentation of its mapping. -/
def looseItems : (fuel : Nat) → NodeReader (List Node)
  | 0 => fault
  | fuel + 1 => do
    if ← skipIf .blockEntry then
      let n ← nodeUnless fuel [.blockEntry, .key, .value, .blockEnd] true false
      return n :: (← looseItems fuel)
    else pure []

/-- The entries of a block mapping. -/
def blockEntries : (fuel : Nat) → NodeReader (List (Node × Node))
  | 0 => fault
  | fuel + 1 => do
    match ← peek with
    | some .blockEnd =>
      skip
      pure []
    | some .key =>
      skip
      let k ← nodeUnless fuel [.key, .value, .blockEnd] true true
      let v ← blockValue fuel
      return (k, v) :: (← blockEntries fuel)
    | some .value =>
      let v ← blockValue fuel
      return (missing, v) :: (← blockEntries fuel)
    | _ => fault

/-- The value in a block mapping. -/
def blockValue : (fuel : Nat) → NodeReader Node
  | 0 => fault
  | fuel + 1 => do
    if ← skipIf .value then nodeUnless fuel [.key, .value, .blockEnd] true true else pure missing

/-- The items of a flow sequence; a key makes a mapping of one entry. -/
def flowItems : (fuel : Nat) → (first : Bool) → NodeReader (List Node)
  | 0, _ => fault
  | fuel + 1, first => do
    if ← skipIf .flowSequenceEnd then pure []
    else
      if !first then
        if !(← skipIf .flowEntry) then fault
      if ← skipIf .flowSequenceEnd then pure []
      else
        if ← skipIf .key then
          let k ←
            if ← nextIsOneOf [.value, .flowEntry, .flowSequenceEnd] then
              skip
              pure missing
            else node fuel false false
          let v ← flowValue fuel .flowSequenceEnd
          return .mapping [(k, v)] :: (← flowItems fuel false)
        else
          let n ← node fuel false false
          return n :: (← flowItems fuel false)

/-- The entries of a flow mapping. -/
def flowEntries : (fuel : Nat) → (first : Bool) → NodeReader (List (Node × Node))
  | 0, _ => fault
  | fuel + 1, first => do
    if ← skipIf .flowMappingEnd then pure []
    else
      if !first then
        if !(← skipIf .flowEntry) then fault
      if ← skipIf .flowMappingEnd then pure []
      else
        if ← skipIf .key then
          let k ← nodeUnless fuel [.value, .flowEntry, .flowMappingEnd] false false
          let v ← flowValue fuel .flowMappingEnd
          return (k, v) :: (← flowEntries fuel false)
        else
          if ← nextIsOneOf [.value] then
            let v ← flowValue fuel .flowMappingEnd
            return (missing, v) :: (← flowEntries fuel false)
          else
            let k ← node fuel false false
            return (k, missing) :: (← flowEntries fuel false)

/-- The value in a flow mapping, or in an entry within a flow sequence. -/
def flowValue : (fuel : Nat) → (stop : Token) → NodeReader Node
  | 0, _ => fault
  | fuel + 1, stop => do
    if ← skipIf .value then nodeUnless fuel [.flowEntry, stop] false false else pure missing

end

/-- Drops the tokens in front that are equal to `t`. -/
def skipAll (t : Token) : NodeReader Unit :=
  modify fun s => { s with tokens := s.tokens.dropWhile (· == t) }

/-- The content of a document. -/
def content (fuel : Nat) : NodeReader Node := do
  match ← peek with
  | none => pure missing
  | some t =>
    if [Token.directive, .documentStart, .documentEnd].contains t then pure missing else node fuel true false

/-- All documents of a text. Only the first may begin without a marker. -/
def documents : (fuel : Nat) → (first : Bool) → NodeReader (List Node)
  | 0, _ => fault
  | fuel + 1, first => do
    skipAll .documentEnd
    match ← peek with
    | none => pure []
    | some t =>
      if !first || t == .directive || t == .documentStart then
        skipAll .directive
        if !(← skipIf .documentStart) then fault
      let n ← content (4 * (← get).tokens.length + 4)
      return n :: (← documents fuel false)

end NodeReader

/-- The document of a text, if it holds exactly one. -/
def document? (s : List Char) : Option Document := do
  let ts ← tokens? s
  match ← (NodeReader.documents (ts.length + 2) true).run ⟨ts, [], []⟩ with
  | ([root], r) => pure ⟨root, r.anchored⟩
  | _ => none

namespace Document

/-- The node that an alias stands for; any other node as it is. -/
def resolve (d : Document) : Node → Option Node
  | .reference k => (d.anchored.find? (·.1 == k)).map (·.2)
  | n => some n

end Document

end Federation.Yaml
