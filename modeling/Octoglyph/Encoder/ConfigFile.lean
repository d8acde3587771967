import Octoglyph.Encoder.Config
import Octoglyph.Toml.Document

/-! # Settings in a file -/

namespace Octoglyph.Config

/-- The keys of a settings file. -/
def keys : List String := ["strategy", "max_code_point", "max_template_slots", "verify"]

def strategy? (v : Toml.Value) : Option Strategy := do
  Strategy.ofName? (String.ofList (← v.choice?))

/-- Takes the settings out of a table that has no other keys. -/
def ofEntries (entries : Toml.Entries) : Except Toml.Problem Config :=
  match entries.find? fun entry => !keys.contains (String.ofList entry.1) with
  | some (key, _) => .error (.unknownKey key)
  | none => do
    let start : Config := {}
    return {
      strategy := ← entries.field "strategy" strategy? start.strategy
      maxCodePoint :=
        ← entries.field "max_code_point" (Toml.Value.natBelow? (Nat.pow 2 32)) start.maxCodePoint
      maxTemplateSlots :=
        ← entries.field "max_template_slots" (Toml.Value.natBelow? (Nat.pow 2 64))
          start.maxTemplateSlots
      verify := ← entries.field "verify" Toml.Value.bool? start.verify }

/-- The settings that a document gives; those it does not name keep their defaults. -/
def ofToml (text : Text) : Except Toml.Problem Config := do
  ofEntries (← Toml.document text)

/-- What is said of a document that is refused. -/
def refusal (problem : Toml.Problem) : String :=
  "Failed to parse encoder config: " ++ problem.message

end Octoglyph.Config
