import Federation.Text.Percent

/-!
# YAML tokens

The indicators, scalars, tags and anchors of a YAML text, together with the places where block collections
begin and end, which the text shows by indentation only. A mapping key is recognized late, at the colon behind
it; until then its place is kept as a *possible key*, and the tokens that announce it are inserted there.
-/

namespace Federation.Yaml

/-- How a scalar is written. -/
inductive ScalarStyle where
  | plain
  | singleQuoted
  | doubleQuoted
  | literal
  | folded
deriving DecidableEq

/-- A tag: its handle and what follows the handle. -/
structure Tag where
  handle : List Char
  suffix : List Char
deriving DecidableEq

/-- A token of a YAML text. -/
inductive Token where
  | directive
  | documentStart
  | documentEnd
  | blockSequenceStart
  | blockMappingStart
  | blockEnd
  | flowSequenceStart
  | flowSequenceEnd
  | flowMappingStart
  | flowMappingEnd
  | blockEntry
  | flowEntry
  | key
  | value
  | reference (name : List Char)
  | anchor (name : List Char)
  | tag (t : Tag)
  | scalar (style : ScalarStyle) (text : List Char)
deriving DecidableEq

/-- A place in a text: what follows it, how far it is from the start, and its line and column. -/
structure Cursor where
  rest : List Char
  index : Nat
  line : Nat
  column : Nat

namespace Cursor

/-- The character `i` places ahead; behind the end there are only NULs. -/
def ahead (c : Cursor) (i : Nat) : Char := c.rest.getD i '\x00'

/-- The character at the cursor. -/
def peek (c : Cursor) : Char := c.ahead 0

/-- One character further. -/
def next (c : Cursor) : Cursor :=
  match c.rest with
  | [] => c
  | '\n' :: r => ⟨r, c.index + 1, c.line + 1, 0⟩
  | _ :: r => ⟨r, c.index + 1, c.line, c.column + 1⟩

/-- Some characters further. -/
def skip (c : Cursor) : Nat → Cursor
  | 0 => c
  | n + 1 => (c.next).skip n

/-- Behind a line break. -/
def skipBreak (c : Cursor) : Cursor :=
  if c.peek = '\r' ∧ c.ahead 1 = '\n' then c.skip 2 else c.next

/-- Past all characters in front that satisfy `p`, and these characters. -/
def spanWithin (p : Char → Bool) : (fuel : Nat) → Cursor → List Char × Cursor
  | 0, c => ([], c)
  | fuel + 1, c =>
    match c.rest with
    | [] => ([], c)
    | x :: _ =>
      if p x then
        let (xs, c) := spanWithin p fuel c.next
        (x :: xs, c)
      else ([], c)

/-- Past all characters in front that satisfy `p`, and these characters. -/
def span (p : Char → Bool) (c : Cursor) : List Char × Cursor := spanWithin p c.rest.length c

end Cursor

def isEnd (c : Char) : Bool := c == '\x00'
def isBreak (c : Char) : Bool := c == '\n' || c == '\r'
def isBreakOrEnd (c : Char) : Bool := isBreak c || isEnd c
def isBlank (c : Char) : Bool := c == ' ' || c == '\t'
def isSpaceOrEnd (c : Char) : Bool := isBlank c || isBreakOrEnd c
def isFlow (c : Char) : Bool := c == ',' || c == '[' || c == ']' || c == '\x7b' || c == '\x7d'
def isWordChar (c : Char) : Bool := c.isAlphanum || c == '_' || c == '-'

/-- Whether a document marker (`---` or `...`) stands at the cursor. -/
def atMarker (m : Char) (c : Cursor) : Bool :=
  c.column == 0 && c.peek == m && c.ahead 1 == m && c.ahead 2 == m && isSpaceOrEnd (c.ahead 3)

/-- Whether either document marker stands at the cursor. -/
def atAnyMarker (c : Cursor) : Bool := atMarker '-' c || atMarker '.' c

/-- What lies between two runs of visible text in a scalar: blanks on the line, or line breaks. -/
structure Gap where
  /-- The blanks before a line break, if none was met yet. -/
  blanks : List Char
  /-- Whether a line break was met, an escaped one included. -/
  broken : Bool
  /-- Whether the first line break counts. -/
  counted : Bool
  /-- The line breaks after the first. -/
  more : Nat

namespace Gap

def none : Gap := ⟨[], false, false, 0⟩

/-- The text that stands for a gap: one break is a blank, more are one break fewer. -/
def text (g : Gap) : List Char :=
  if !g.broken then g.blanks
  else if g.counted && g.more == 0 then [' ']
  else List.replicate g.more '\n'

/-- Extends a gap over blanks and breaks. In the indentation of a line, columns below `tabLimit` may not hold
a tab. -/
def extend (tabLimit : Int) : (fuel : Nat) → Gap → Cursor → Option (Gap × Cursor)
  | 0, g, c => some (g, c)
  | fuel + 1, g, c =>
    let x := c.peek
    if isBlank x then
      if g.broken then
        if x == '\t' && (c.column : Int) < tabLimit then Option.none else extend tabLimit fuel g c.next
      else extend tabLimit fuel { g with blanks := g.blanks ++ [x] } c.next
    else if isBreak x then
      if g.broken then extend tabLimit fuel { g with more := g.more + 1 } c.skipBreak
      else extend tabLimit fuel { g with blanks := [], broken := true, counted := true } c.skipBreak
    else some (g, c)

end Gap

/-- Whether a plain scalar ends before the character at the cursor. -/
def endsPlain (inFlow : Bool) (c : Cursor) : Bool :=
  let x := c.peek
  isSpaceOrEnd x || (x == ':' && (isSpaceOrEnd (c.ahead 1) || (inFlow && isFlow (c.ahead 1)))) ||
    (inFlow && isFlow x)

/-- The run of a plain scalar's characters at the cursor. -/
def plainRun (inFlow : Bool) : (fuel : Nat) → Cursor → List Char × Cursor
  | 0, c => ([], c)
  | fuel + 1, c =>
    if endsPlain inFlow c then ([], c)
    else
      let (xs, c') := plainRun inFlow fuel c.next
      (c.peek :: xs, c')

/-- A plain scalar, with the fact whether the last gap was broken. It ends at a comment, at a document marker,
and in block context where a line is indented less than `indent`. -/
def plainScalar (inFlow : Bool) (indent : Int) : (fuel : Nat) → (text : List Char) → Gap → Cursor →
    Option (List Char × Bool × Cursor)
  | 0, text, g, c => some (text, g.broken, c)
  | fuel + 1, text, g, c =>
    if atAnyMarker c || c.peek == '#' then some (text, g.broken, c)
    else
      let (run, c) := plainRun inFlow c.rest.length c
      let (text, g) := if run.isEmpty then (text, g) else (text ++ g.text ++ run, Gap.none)
      if !(isBlank c.peek || isBreak c.peek) then some (text, g.broken, c)
      else do
        let (g, c) ← g.extend indent c.rest.length c
        if !inFlow && (c.column : Int) < indent then pure (text, g.broken, c)
        else plainScalar inFlow indent fuel text g c

/-- The character of a one-letter escape in double quotes. -/
def simpleEscape? : Char → Option Char
  | '0' => some '\x00'
  | 'a' => some '\x07'
  | 'b' => some '\x08'
  | 't' => some '\t'
  | '\t' => some '\t'
  | 'n' => some '\n'
  | 'v' => some '\x0b'
  | 'f' => some '\x0c'
  | 'r' => some '\r'
  | 'e' => some '\x1b'
  | ' ' => some ' '
  | '"' => some '"'
  | '\\' => some '\\'
  | 'N' => some '\u0085'
  | '_' => some '\u00a0'
  | 'L' => some '\u2028'
  | 'P' => some '\u2029'
  | c => if c.toNat = 0x27 then some c else none

/-- How many digits follow a numeric escape. -/
def escapeDigits : Char → Nat
  | 'x' => 2
  | 'u' => 4
  | 'U' => 8
  | _ => 0

/-- The character of a code point. -/
def charOf? (n : Nat) : Option Char := if n.isValidChar then some (Char.ofNat n) else none

/-- The quote that encloses a scalar. -/
def quoteOf (single : Bool) : Char := if single then '\x27' else '"'

/-- The run of a quoted scalar's characters at the cursor, with the fact whether an escaped line break ended it. -/
def quotedRun (single : Bool) : (fuel : Nat) → Cursor → Option (List Char × Bool × Cursor)
  | 0, c => some ([], false, c)
  | fuel + 1, c =>
    let x := c.peek
    if isSpaceOrEnd x then some ([], false, c)
    else if x == quoteOf single then
      if single && c.ahead 1 == x then do
        let (xs, b, c) ← quotedRun single fuel (c.skip 2)
        pure (x :: xs, b, c)
      else some ([], false, c)
    else if !single && x == '\\' then
      let e := c.ahead 1
      if isBreak e then some ([], true, c.next.skipBreak)
      else
        match simpleEscape? e with
        | some y => do
          let (xs, b, c) ← quotedRun single fuel (c.skip 2)
          pure (y :: xs, b, c)
        | none => do
          let n := escapeDigits e
          if n = 0 then none
          else
            let ds ← ((c.rest.drop 2).take n).mapM Percent.hexValue?
            if ds.length = n then
              let y ← charOf? (ds.foldl (fun acc d => acc * 16 + d) 0)
              let (xs, b, c) ← quotedRun single fuel (c.skip (2 + n))
              pure (y :: xs, b, c)
            else none
    else do
      let (xs, b, c) ← quotedRun single fuel c.next
      pure (x :: xs, b, c)

/-- A quoted scalar after its opening quote. -/
def quotedScalar (single : Bool) : (fuel : Nat) → (text : List Char) → Cursor → Option (List Char × Cursor)
  | 0, _, _ => none
  | fuel + 1, text, c =>
    if atAnyMarker c || isEnd c.peek then none
    else do
      let (run, escaped, c) ← quotedRun single (c.rest.length + 1) c
      let text := text ++ run
      if c.peek == quoteOf single && !c.rest.isEmpty then pure (text, c.next)
      else
        let (g, c) ← Gap.extend (-1) c.rest.length ⟨[], escaped, false, 0⟩ c
        quotedScalar single fuel (text ++ g.text) c

/-- The line breaks, and the indentation if it is still open (zero), before a line of a block scalar. -/
def blockBreaks (parent : Int) : (fuel : Nat) → (indent widest breaks : Nat) → Cursor →
    Option (Nat × Nat × Cursor)
  | 0, indent, _, breaks, c => some (indent, breaks, c)
  | fuel + 1, indent, widest, breaks, c =>
    let open_ (c : Cursor) : Bool := indent == 0 || c.column < indent
    if open_ c && c.peek == ' ' then blockBreaks parent fuel indent widest breaks c.next
    else
      let widest := max widest c.column
      if open_ c && c.peek == '\t' then none
      else if isBreak c.peek then blockBreaks parent fuel indent widest (breaks + 1) c.skipBreak
      else
        let indent := if indent == 0 then max (max widest (parent + 1).toNat) 1 else indent
        some (indent, breaks, c)

/-- The lines of a block scalar. `first` tells that no line came yet, `breaks` counts the empty lines before
this one and `leadingBlank` tells whether the line before began with a blank. -/
def blockLines (literal : Bool) (parent : Int) : (fuel : Nat) → (indent : Nat) → (text : List Char) →
    (first : Bool) → (breaks : Nat) → (leadingBlank : Bool) → Cursor → Option (List Char × Bool × Nat × Cursor)
  | 0, _, text, first, breaks, _, c => some (text, first, breaks, c)
  | fuel + 1, indent, text, first, breaks, leadingBlank, c =>
    if c.column != indent || isEnd c.peek then some (text, !first, breaks, c)
    else
      let blank := isBlank c.peek
      let join : List Char :=
        if first then []
        else if !literal && !leadingBlank && !blank then (if breaks == 0 then [' '] else [])
        else ['\n']
      let (line, c) := c.span fun x => !isBreakOrEnd x
      let text := text ++ join ++ List.replicate breaks '\n' ++ line
      if isEnd c.peek then some (text, false, 0, c)
      else do
        let (indent, breaks, c) ← blockBreaks parent (c.rest.length + 1) indent 0 0 c.skipBreak
        blockLines literal parent fuel indent text false breaks blank c

/-- Whether a block scalar keeps its last line break, and the empty lines after it. -/
inductive Chomp where
  | clip
  | strip
  | keep
deriving DecidableEq

/-- The chomping indicator at the cursor. -/
def chompOf? : Char → Option Chomp
  | '+' => some .keep
  | '-' => some .strip
  | _ => none

/-- The indentation indicator at the cursor, which may not be zero. -/
def incrementAt (c : Cursor) : Option (Nat × Cursor) :=
  if c.peek.isDigit then
    if c.peek == '0' then none else some (c.peek.toNat - 48, c.next)
  else some (0, c)

/-- The indicators behind `|` or `>`, in either order. -/
def blockHeader (c : Cursor) : Option (Chomp × Nat × Cursor) := do
  match chompOf? c.peek with
  | some ch =>
    let (n, c) ← incrementAt c.next
    pure (ch, n, c)
  | none =>
    let (n, c) ← incrementAt c
    if n = 0 then pure (.clip, 0, c)
    else
      match chompOf? c.peek with
      | some ch => pure (ch, n, c.next)
      | none => pure (.clip, n, c)

/-- Past blanks and a comment to the end of the line, if nothing else stands there. -/
def restOfLine (c : Cursor) : Option Cursor :=
  let c := (c.span isBlank).2
  let c := if c.peek == '#' then (c.span fun x => !isBreakOrEnd x).2 else c
  if isBreak c.peek then some c.skipBreak else if isEnd c.peek then some c else none

/-- A block scalar after its `|` or `>`. -/
def blockScalar (literal : Bool) (parent : Int) (c : Cursor) : Option (List Char × Cursor) := do
  let (chomp, increment, c) ← blockHeader c
  let c ← restOfLine c
  let indent : Nat := if increment = 0 then 0 else if 0 ≤ parent then parent.toNat + increment else increment
  let (indent, breaks, c) ← blockBreaks parent (c.rest.length + 1) indent 0 0 c
  let (text, ended, breaks, c) ← blockLines literal parent (c.rest.length + 1) indent [] true breaks false c
  let tail : List Char := if ended then ['\n'] else []
  match chomp with
  | .strip => pure (text, c)
  | .clip => pure (text ++ tail, c)
  | .keep => pure (text ++ tail ++ List.replicate breaks '\n', c)

/-- The characters of a tag besides letters, digits, `_`, `-` and `%`. -/
def isTagChar (c : Char) : Bool :=
  isWordChar c || c.toNat == 0x27 ||
    [';', '/', '?', ':', '@', '&', '=', '+', '$', ',', '.', '!', '~', '*', '(', ')', '[', ']'].contains c

/-- The octet of an escape (a percent sign and two digits) some places ahead. -/
def octetAhead? (c : Cursor) (i : Nat) : Option Nat := do
  if c.ahead i == '%' then
    let h ← Percent.hexValue? (c.ahead (i + 1))
    let l ← Percent.hexValue? (c.ahead (i + 2))
    pure (h * 16 + l)
  else none

/-- The character of an escape: a single octet below 0x80, or two octets read as one number. -/
def escapedTagChar? (c : Cursor) : Option (Char × Cursor) := do
  let a ← octetAhead? c 0
  if a < 0x80 then pure (Char.ofNat a, c.skip 3)
  else if 0xC0 ≤ a && a < 0xE0 then
    let b ← octetAhead? c 3
    if 0x80 ≤ b && b < 0xC0 then do
      let x ← charOf? (a * 256 + b)
      pure (x, c.skip 6)
    else none
  else none

/-- The characters of a tag, escapes undone. -/
def tagChars : (fuel : Nat) → Cursor → Option (List Char × Cursor)
  | 0, c => some ([], c)
  | fuel + 1, c =>
    if c.peek == '%' then do
      let (x, c) ← escapedTagChar? c
      let (xs, c) ← tagChars fuel c
      pure (x :: xs, c)
    else if isTagChar c.peek then do
      let (xs, c') ← tagChars fuel c.next
      pure (c.peek :: xs, c')
    else some ([], c)

/-- At least one character of a tag. -/
def someTagChars (fuel : Nat) (c : Cursor) : Option (List Char × Cursor) := do
  let (xs, c) ← tagChars fuel c
  if xs.isEmpty then none else pure (xs, c)

/-- A tag; a blank or the end must follow it. -/
def tagAt (c : Cursor) : Option (Tag × Cursor) := do
  let n := c.rest.length
  let (t, c) ← (do
    if c.ahead 1 == '<' then
      let (uri, c) ← someTagChars n (c.skip 2)
      if c.peek == '>' then pure (⟨[], uri⟩, c.next) else none
    else
      let (word, c') := c.next.span isWordChar
      if c'.peek == '!' then
        let (suffix, c) ← someTagChars n c'.next
        pure (⟨'!' :: (word ++ ['!']), suffix⟩, c)
      else
        let (more, c) ← tagChars n c'
        let suffix := word ++ more
        pure (if suffix.isEmpty then ⟨[], ['!']⟩ else ⟨['!'], suffix⟩, c) : Option (Tag × Cursor))
  if isSpaceOrEnd c.peek then pure (t, c) else none

/-- The name of an anchor or alias after its indicator. -/
def nameAt (c : Cursor) : Option (List Char × Cursor) :=
  let (name, c) := c.span isWordChar
  let follows := isSpaceOrEnd c.peek || ['?', ':', ',', ']', '\x7d', '%', '@', '\x60'].contains c.peek
  if name.isEmpty || !follows then none else some (name, c)

/-- Whether digits make a part of a version: from one to nine of them. -/
def isVersionNumber (ds : List Char) : Bool := 1 ≤ ds.length && ds.length ≤ 9

/-- A directive after its `%`: a version needs two numbers, other directives are skipped to the line's end. -/
def directiveAt (c : Cursor) : Option Cursor := do
  let (name, c) := c.span isWordChar
  if name.isEmpty || !isSpaceOrEnd c.peek then none
  else if name == "YAML".toList then
    let c := (c.span isBlank).2
    let (major, c) := c.span Char.isDigit
    if !isVersionNumber major || c.peek != '.' then none
    else
      let (minor, c) := c.next.span Char.isDigit
      if isVersionNumber minor then restOfLine c else none
  else if name == "TAG".toList then
    let c := (c.span isBlank).2
    if c.peek != '!' then none
    else
      let (word, c) := c.next.span isWordChar
      let c ← if c.peek == '!' then some c.next else if word.isEmpty then some c else none
      let c := (c.span isBlank).2
      let (_, c) ← someTagChars c.rest.length c
      if isSpaceOrEnd c.peek then restOfLine c else none
  else restOfLine (c.span fun x => !isBreakOrEnd x).2

/-- A place where a key may have begun. -/
structure PossibleKey where
  possible : Bool
  required : Bool
  /-- How many tokens stand before it. -/
  number : Nat
  at_ : Cursor

/-- The state of the reader between two tokens. -/
structure Reader where
  cursor : Cursor
  /-- The tokens so far, latest first. -/
  tokens : List Token
  keyAllowed : Bool
  /-- A possible key per level of flow collections, innermost first. -/
  keys : List PossibleKey
  indent : Int
  indents : List Int
  flowLevel : Nat
  /-- Where a colon may follow a quoted key without a blank. -/
  adjacentAt : Option Nat

namespace Reader

/-- The reader at the start of a text, which ends at its first NUL. -/
def start (s : List Char) : Reader :=
  let c : Cursor := ⟨s.takeWhile (· != '\x00'), 0, 0, 0⟩
  ⟨c, [], true, [⟨false, false, 0, c⟩], -1, [], 0, none⟩

def push (r : Reader) (t : Token) : Reader := { r with tokens := t :: r.tokens }

/-- Inserts a token so that `n` tokens stand before it. -/
def insertAt (r : Reader) (n : Nat) (t : Token) : Reader :=
  let k := r.tokens.length - n
  { r with tokens := r.tokens.take k ++ t :: r.tokens.drop k }

/-- Forgets the innermost possible key; a required one must not be forgotten. -/
def dropKey (r : Reader) : Option Reader :=
  match r.keys with
  | [] => some r
  | k :: ks =>
    if k.possible && k.required then none else some { r with keys := { k with possible := false } :: ks }

/-- Notes that a key may begin here. -/
def noteKey (r : Reader) : Option Reader :=
  if !r.keyAllowed then some r
  else do
    let k : PossibleKey :=
      ⟨true, 0 < r.flowLevel && r.indent == (r.cursor.column : Int), r.tokens.length, r.cursor⟩
    let r ← r.dropKey
    pure { r with keys := k :: r.keys.tail }

/-- Drops the possible keys that lie on an earlier line or too far back. -/
def dropStaleKeys (r : Reader) : Option Reader := do
  let keys ← r.keys.mapM fun k =>
    if k.possible && (k.at_.line < r.cursor.line || k.at_.index + 1024 < r.cursor.index) then
      if k.required then none else some { k with possible := false }
    else some k
  pure { r with keys }

/-- Opens a block collection if the column is beyond the current indentation; its token stands at `number`, or
at the end. -/
def openBlock (r : Reader) (column : Nat) (number : Option Nat) (t : Token) : Reader :=
  if 0 < r.flowLevel || (column : Int) ≤ r.indent then r
  else
    let r := { r with indents := r.indent :: r.indents, indent := column }
    match number with
    | some n => r.insertAt n t
    | none => r.push t

/-- Closes the block collections that are indented beyond a column. -/
def closeBlocksWithin (column : Int) : (fuel : Nat) → Reader → Reader
  | 0, r => r
  | fuel + 1, r =>
    if column < r.indent then
      closeBlocksWithin column fuel
        { r.push .blockEnd with indent := r.indents.headD (-1), indents := r.indents.tail }
    else r

/-- Closes the block collections that are indented beyond a column. -/
def closeBlocks (r : Reader) (column : Int) : Reader :=
  if 0 < r.flowLevel then r else closeBlocksWithin column (r.indents.length + 1) r

/-- Past blanks, breaks and comments. A new line in block context allows a key; there a tab does not count as
indentation. -/
def skipSpaceWithin : (fuel : Nat) → Reader → Reader
  | 0, r => r
  | fuel + 1, r =>
    let x := r.cursor.peek
    if x == ' ' || (x == '\t' && (0 < r.flowLevel || !r.keyAllowed)) then
      skipSpaceWithin fuel { r with cursor := r.cursor.next }
    else if isBreak x then
      skipSpaceWithin fuel
        { r with cursor := r.cursor.skipBreak, keyAllowed := if r.flowLevel = 0 then true else r.keyAllowed }
    else if x == '#' then
      skipSpaceWithin fuel { r with cursor := (r.cursor.span fun y => !isBreakOrEnd y).2 }
    else r

def skipSpace (r : Reader) : Reader := skipSpaceWithin (r.cursor.rest.length + 1) r

/-- One indicator character as a token. -/
def indicator (r : Reader) (keyAllowed : Bool) (t : Token) : Reader :=
  { r.push t with cursor := r.cursor.next, keyAllowed }

/-- The deepest nesting of flow collections. -/
def maxFlowLevel : Nat := 255

def openFlow (r : Reader) (t : Token) : Option Reader := do
  let r ← r.noteKey
  if maxFlowLevel ≤ r.flowLevel then none
  else
    let r := { r with keys := ⟨false, false, 0, r.cursor⟩ :: r.keys, flowLevel := r.flowLevel + 1 }
    pure (r.indicator true t)

def closeFlow (r : Reader) (t : Token) : Option Reader := do
  let r ← r.dropKey
  let r := if 0 < r.flowLevel then { r with keys := r.keys.tail, flowLevel := r.flowLevel - 1 } else r
  pure (r.indicator false t)

def readFlowEntry (r : Reader) : Option Reader := do
  let r ← r.dropKey
  pure (r.indicator true .flowEntry)

def readBlockEntry (r : Reader) : Option Reader :=
  if 0 < r.flowLevel || !r.keyAllowed then none
  else do
    let r ← (r.openBlock r.cursor.column none .blockSequenceStart).dropKey
    pure (r.indicator true .blockEntry)

def readKey (r : Reader) : Option Reader :=
  if r.flowLevel = 0 && !r.keyAllowed then none
  else do
    let r ← (r.openBlock r.cursor.column none .blockMappingStart).dropKey
    pure (r.indicator (r.flowLevel = 0) .key)

def readValue (r : Reader) : Option Reader :=
  match r.keys with
  | k :: ks =>
    if k.possible then
      let r := (r.insertAt k.number .key).openBlock k.at_.column (some k.number) .blockMappingStart
      some ({ r with keys := { k with possible := false } :: ks }.indicator false .value)
    else if r.flowLevel = 0 then
      if !r.keyAllowed then none
      else some ((r.openBlock r.cursor.column none .blockMappingStart).indicator true .value)
    else some (r.indicator false .value)
  | [] => none

def readScalar (r : Reader) (single : Bool) : Option Reader := do
  let r ← r.noteKey
  let (text, c) ← quotedScalar single (r.cursor.rest.length + 1) [] r.cursor.next
  pure { r.push (.scalar (if single then .singleQuoted else .doubleQuoted) text) with
    cursor := c, keyAllowed := false, adjacentAt := some c.index }

def readPlain (r : Reader) : Option Reader := do
  let r ← r.noteKey
  let (text, broken, c) ←
    plainScalar (0 < r.flowLevel) (r.indent + 1) (r.cursor.rest.length + 1) [] Gap.none r.cursor
  pure { r.push (.scalar .plain text) with cursor := c, keyAllowed := broken }

def readBlockScalar (r : Reader) (literal : Bool) : Option Reader := do
  let r ← r.noteKey
  let (text, c) ← blockScalar literal r.indent r.cursor.next
  pure { r.push (.scalar (if literal then .literal else .folded) text) with cursor := c, keyAllowed := true }

def readName (r : Reader) (make : List Char → Token) : Option Reader := do
  let r ← r.noteKey
  let (name, c) ← nameAt r.cursor.next
  pure { r.push (make name) with cursor := c, keyAllowed := false }

def readTag (r : Reader) : Option Reader := do
  let r ← r.noteKey
  let (t, c) ← tagAt r.cursor
  pure { r.push (.tag t) with cursor := c, keyAllowed := false }

/-- Closes all blocks before a document marker or a directive. -/
def leaveDocument (r : Reader) : Option Reader := do
  let r ← (r.closeBlocks (-1)).dropKey
  pure { r with keyAllowed := false }

/-- Whether a colon at the cursor ends a key. -/
def atValue (r : Reader) : Bool :=
  r.cursor.peek == ':' && (isSpaceOrEnd (r.cursor.ahead 1) ||
    (0 < r.flowLevel && (isFlow (r.cursor.ahead 1) || r.adjacentAt == some r.cursor.index)))

/-- Reads the next token from a place where no blank stands and the text does not end. -/
def readToken (r : Reader) : Option Reader :=
  let c := r.cursor
  let x := c.peek
  let lone := isSpaceOrEnd (c.ahead 1)
  if c.column == 0 && x == '%' then do
    let r ← r.leaveDocument
    let c ← directiveAt c.next
    pure { r.push .directive with cursor := c }
  else if atMarker '-' c then do
    let r ← r.leaveDocument
    pure { r.push .documentStart with cursor := c.skip 3 }
  else if atMarker '.' c then do
    let r ← r.leaveDocument
    pure { r.push .documentEnd with cursor := c.skip 3 }
  else if x == '[' then r.openFlow .flowSequenceStart
  else if x == '\x7b' then r.openFlow .flowMappingStart
  else if x == ']' then r.closeFlow .flowSequenceEnd
  else if x == '\x7d' then r.closeFlow .flowMappingEnd
  else if x == ',' then r.readFlowEntry
  else if x == '-' && lone then r.readBlockEntry
  else if x == '?' && lone then r.readKey
  else if r.atValue then r.readValue
  else if x == '*' then r.readName .reference
  else if x == '&' then r.readName .anchor
  else if x == '!' then r.readTag
  else if x == '|' && r.flowLevel = 0 then r.readBlockScalar true
  else if x == '>' && r.flowLevel = 0 then r.readBlockScalar false
  else if x == quoteOf true then r.readScalar true
  else if x == quoteOf false then r.readScalar false
  else if x == '%' || x == '@' || x.toNat == 0x60 then none
  else r.readPlain

/-- Reads tokens up to the end of the text. -/
def readAll : (fuel : Nat) → Reader → Option Reader
  | 0, _ => none
  | fuel + 1, r => do
    let r ← r.skipSpace.dropStaleKeys
    let r := r.closeBlocks r.cursor.column
    if isEnd r.cursor.peek then (r.closeBlocks (-1)).dropKey
    else
      let r ← r.readToken
      readAll fuel r

end Reader

/-- The tokens of a text, if it has only well-formed ones. -/
def tokens? (s : List Char) : Option (List Token) :=
  (Reader.readAll (2 * s.length + 2) (Reader.start s)).map fun r => r.tokens.reverse

end Federation.Yaml
