import Transit.Json.Reader

/-!
# Records in JSON documents

A record is described by its fields in order: the name, how the value is read, and
what stands in for a value that is left out.  In a document a record is an object
with these keys or a list of the values in order.

In an object, keys that no field has are skipped with their values, and a key that
comes a second time is refused at once.  Fields that are left out are found at the
end of the object, the first one in order is named.
-/

namespace Transit.Json

universe u

/-- The fields of a record, whose values together make up a nested tuple. -/
inductive Fields : Type → Type 1 where
  | nil : Fields Unit
  | cons {Value Rest : Type} (name : String) (read : Reader Value) (absent? : Option Value)
      (rest : Fields Rest) : Fields (Value × Rest)

namespace Fields

/-- A field that must be there. -/
def required {Value Rest : Type} (name : String) (read : Reader Value) (rest : Fields Rest) :
    Fields (Value × Rest) :=
  .cons name read none rest

/-- A field with a value that stands in for it. -/
def withDefault {Value Rest : Type} (name : String) (read : Reader Value) (absent : Value)
    (rest : Fields Rest) : Fields (Value × Rest) :=
  .cons name read (some absent) rest

/-- A field that may be null or left out. -/
def optional {Value Rest : Type} (name : String) (read : Reader Value) (rest : Fields Rest) :
    Fields (Option Value × Rest) :=
  .cons name (Reader.optional read) (some none) rest

/-- The values of the fields that have been read so far. -/
def Slots : {Record : Type} → Fields Record → Type
  | _, .nil => Unit
  | _, @cons Value _ _ _ _ rest => Option Value × rest.Slots

/-- Nothing has been read. -/
def vacant : {Record : Type} → (fields : Fields Record) → fields.Slots
  | _, .nil => ()
  | _, .cons _ _ _ rest => (none, rest.vacant)

/-- How to go on after a key: read the value of the field that has this name.  The
value comes after a colon.  No field may be read twice. -/
def fill? (key : String) :
    {Record : Type} → (fields : Fields Record) → fields.Slots → Option (Reader fields.Slots)
  | _, .nil, _ => none
  | _, @cons Value _ name read _ rest, slots =>
      let (value?, values) : Option Value × rest.Slots := slots
      if key = name then
        some <|
          match value? with
          | some _ => throw (.unfit (some s!"duplicate field \x60{name}\x60"))
          | none => do
              Reader.colon
              let value ← read
              return ((some value, values) : Option Value × rest.Slots)
      else
        (rest.fill? key values).map fun reader => do
          let others ← reader
          return ((value?, others) : Option Value × rest.Slots)

/-- The record, once its object is at an end. -/
def finish :
    {Record : Type} → (fields : Fields Record) → fields.Slots → Except Refusal Record
  | _, .nil, _ => .ok ()
  | _, @cons Value _ name _ absent? rest, slots =>
      let (value?, values) : Option Value × rest.Slots := slots
      match value?.or absent? with
      | some value => return (value, ← rest.finish values)
      | none => throw (.unfit (some s!"missing field \x60{name}\x60"))

/-- The members of an object and then the record.  Each step takes at least one
character, so the length of the document bounds the steps. -/
def members {Record : Type} (fields : Fields Record) :
    (steps : Nat) → (isFirst : Bool) → fields.Slots → Reader Record
  | 0, _, _ => throw (.truncated .object)
  | steps + 1, isFirst, slots => do
      if ← Reader.nextMember isFirst then
        let key ← Reader.string
        match fields.fill? key slots with
        | some reader => fields.members steps false (← reader)
        | none =>
            Reader.colon
            Reader.skip
            fields.members steps false slots
      else
        fields.finish slots

/-- The values in order. -/
def elements : {Record : Type} → Fields Record → (isFirst : Bool) → Reader Record
  | _, .nil, _ => return ()
  | _, .cons _ read absent? rest, isFirst => do
      if ← Reader.nextElement isFirst then
        let value ← read
        return (value, ← rest.elements false)
      else
        match absent? with
        | some value => return (value, ← rest.elements isFirst)
        | none => throw (.unfit none)

/-- A record, as an object or as a list. -/
def record {Record : Type} (fields : Fields Record) : Reader Record := do
  match ← Reader.mark with
  | '{' =>
      Reader.advance
      let record ← fields.members ((← get).length + 1) true fields.vacant
      Reader.closeObject
      return record
  | '[' =>
      Reader.advance
      let record ← fields.elements true
      Reader.closeList
      return record
  | _ => Reader.mismatch

end Fields

end Transit.Json
