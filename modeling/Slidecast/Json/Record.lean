import Slidecast.Json.Decoder

/-!
# Records

A record is an object with known fields, or the list of the values of its fields in order.
Fields may come in any order in an object.  A field that is named twice, and a required one that
is missing at the end, are mismatches; fields that are not known are passed over.  In a list,
only fields that are not required may be missing at the end, and nothing may follow the last.
-/

set_option autoImplicit false

namespace Slidecast.Json

/-- A field of a record: its name, other names for it, and how its value changes the record. -/
structure Field (ρ : Type) where
  name : String
  aliases : List String := []
  required : Bool := false
  decoder : Decoder (ρ → ρ)

/-- A field whose value is stored by `set`. -/
def Field.of {ρ α : Type} (name : String) (d : Decoder α) (set : α → ρ → ρ) : Field ρ where
  name := name
  decoder := d.map set

/-- The field, which now may not be missing. -/
def Field.demanded {ρ : Type} (field : Field ρ) : Field ρ := { field with required := true }

/-- The field with another name for it. -/
def Field.alsoNamed {ρ : Type} (field : Field ρ) (name : String) : Field ρ :=
  { field with aliases := name :: field.aliases }

/-- Whether a name means the field. -/
def Field.answersTo {ρ : Type} (field : Field ρ) (name : String) : Bool :=
  field.name == name || field.aliases.contains name

/-- What is known of a record: the value of all fields that are missing, and the fields. -/
structure Shape (ρ : Type) where
  blank : ρ
  fields : List (Field ρ)

/-- Looks for the next name in an object: the text behind its opening quote, or nothing at the
closing bracket, which is not passed. -/
def nextName (first : Bool) (cs : List Char) : Except Fault (Option (List Char)) :=
  match skipSpace cs with
  | [] => .error .endOfText
  | '}' :: _ => .ok none
  | c :: rest =>
      if first then
        if c = '"' then .ok (some rest) else .error .malformed
      else if c = ',' then
        match skipSpace rest with
        | [] => .error .endOfText
        | '"' :: rest => .ok (some rest)
        | _ => .error .malformed
      else .error .malformed

namespace Shape

variable {ρ : Type}

/-- Whether all required fields are among the names that were seen. -/
def complete (shape : Shape ρ) (seen : List String) : Bool :=
  shape.fields.all fun field => !field.required || seen.contains field.name

/-- Reads the fields of an object up to the closing bracket, at most as many as the number
says.  `seen` holds the names of the fields that were read. -/
def members (shape : Shape ρ) : Nat → List String → ρ → Bool → Decoder ρ
  | 0, _, _, _, _ => .error .endOfText
  | fuel + 1, seen, value, first, cs => do
      match ← nextName first cs with
      | none =>
          if shape.complete seen then do .ok (value, ← expectSign '}' cs)
          else .error .mismatch
      | some cs =>
          let (name, rest) ← unquote cs
          match shape.fields.find? (·.answersTo name) with
          | some field =>
              if seen.contains field.name then .error .mismatch
              else
                let rest ← expectSign ':' rest
                let (set, rest) ← field.decoder rest
                members shape fuel (field.name :: seen) (set value) false rest
          | none =>
              let rest ← expectSign ':' rest
              let rest ← skipValue rest
              members shape fuel seen value false rest

/-- Reads the values of the fields from a list. -/
def positions : List (Field ρ) → ρ → Bool → Decoder ρ
  | [], value, _, cs => do .ok (value, ← expectSign ']' cs)
  | field :: fields, value, first, cs => do
      match ← nextElement first cs with
      | none =>
          if (field :: fields).any (·.required) then .error .mismatch
          else do .ok (value, ← expectSign ']' cs)
      | some cs =>
          let (set, rest) ← field.decoder cs
          positions fields (set value) false rest

/-- Reads a record. -/
def decoder (shape : Shape ρ) : Decoder ρ := fun cs =>
  match skipSpace cs with
  | '{' :: rest => shape.members (rest.length + 1) [] shape.blank true rest
  | '[' :: rest => positions shape.fields shape.blank true rest
  | rest => .error (otherShape rest)

end Shape

end Slidecast.Json
