import Federation.KeyMap
import Federation.Yaml.Node

/-!
# Typed reading of YAML

Texts, lists and maps out of the nodes of a document. Every scalar is a text, however it is written; only a
plain `~` or `null` also means that there is no value. Aliases are followed.
-/

namespace Federation.Yaml.Document

/-- Any scalar, as it is spelled. -/
def text? (d : Document) (n : Node) : Option String :=
  match d.resolve n with
  | some (.scalar _ _ t) => some (String.ofList t)
  | _ => none

/-- The items of a sequence. -/
def items? (d : Document) (n : Node) : Option (List Node) :=
  match d.resolve n with
  | some (.sequence ns) => some ns
  | _ => none

/-- The entries of a mapping whose keys are all scalars. -/
def entries? (d : Document) (n : Node) : Option (List (String × Node)) :=
  match d.resolve n with
  | some (.mapping es) => es.mapM fun e => do pure (← d.text? e.1, e.2)
  | _ => none

/-- A sequence of texts. -/
def texts? (d : Document) (n : Node) : Option (List String) := do (← d.items? n).mapM d.text?

/-- A mapping with values read by `read`; of two entries with one key the later stays. -/
def map? {α : Type} (read : Node → Option α) (d : Document) (n : Node) : Option (KeyMap α) := do
  let es ← (← d.entries? n).mapM fun e => do pure (e.1, ← read e.2)
  pure (KeyMap.ofList es)

/-- What a plain scalar says when it says that there is no value. -/
def nullTexts : List String := ["~", "null"]

/-- Whether a node says that there is no value; a null tag on any other text is a fault. -/
def isNull? (d : Document) (n : Node) : Option Bool := do
  match ← d.resolve n with
  | .scalar .plain none t => pure (nullTexts.contains (String.ofList t))
  | .scalar .plain (some g) t =>
    if g == ⟨"!!".toList, "null".toList⟩ then
      if nullTexts.contains (String.ofList t) then pure true else none
    else pure false
  | _ => pure false

/-- A value that takes `dflt` where none is written. -/
def orDefault? {α : Type} (read : Node → Option α) (dflt : α) (d : Document) : Option Node → Option α
  | none => some dflt
  | some n => do if ← d.isNull? n then pure dflt else read n

/-- The fields of a record, from a mapping that may have other keys too but no field twice, or from a sequence
of at most as many items. -/
def record? (d : Document) (fields : List String) (n : Node) : Option (List (Option Node)) := do
  match ← d.resolve n with
  | .sequence ns =>
    if ns.length ≤ fields.length then
      pure (ns.map some ++ List.replicate (fields.length - ns.length) none)
    else none
  | n => do
    let es ← d.entries? n
    fields.mapM fun f =>
      match es.filter (·.1 == f) with
      | [] => some none
      | [e] => some (some e.2)
      | _ => none

end Federation.Yaml.Document
