import VersionedModel.Json.Basic
import VersionedModel.Json.Token

/-!
# JSON texts as written

`Json.Written` is the shape of a JSON text: members stand in the order of the text, repeated keys
included, and numbers are decimals of any size. `Written.parse` builds it from tokens and accepts
exactly what the grammar of JSON accepts, at any depth. `Written.tree?` then gives the text its
meaning, which it has only if its numbers are in range, its texts have no lone surrogates and its
nesting is at most `nestingLimit`.
-/

namespace VersionedModel

namespace Json

open Binary64 (Decimal)

/-- The shape of a JSON text. -/
inductive Written where
  /-- The null value. -/
  | null
  /-- A truth value. -/
  | bool (b : Bool)
  /-- A number. -/
  | number (n : Numeral)
  /-- A text. -/
  | text (s : Option String)
  /-- A sequence. -/
  | array (items : List Written)
  /-- Members, with their keys. -/
  | object (members : List (Option String × Written))

namespace Written

/-! ### From tokens -/

/-- A container that is still open, with what it holds so far in reverse order. -/
inductive Frame where
  /-- A sequence. -/
  | array (items : List Written)
  /-- An object, with the key of the member that is being read. -/
  | object (members : List (Option String × Written)) (key : Option String)

/-- What may come next. Open containers are listed from the inside out. -/
inductive Expected where
  /-- A value. -/
  | value (frames : List Frame)
  /-- A value, or the end of a sequence without items. -/
  | firstItem (frames : List Frame)
  /-- A comma, or the end of a sequence. -/
  | afterItem (items : List Written) (frames : List Frame)
  /-- A key, or the end of an object without members. -/
  | firstKey (frames : List Frame)
  /-- A key. -/
  | key (members : List (Option String × Written)) (frames : List Frame)
  /-- The colon behind a key. -/
  | colon (members : List (Option String × Written)) (key : Option String) (frames : List Frame)
  /-- A comma, or the end of an object. -/
  | afterMember (members : List (Option String × Written)) (frames : List Frame)
  /-- Nothing. -/
  | done (result : Written)

/-- Put a finished value into the innermost open container. -/
def deliver (w : Written) : List Frame → Expected
  | [] => .done w
  | .array items :: frames => .afterItem (w :: items) frames
  | .object members key :: frames => .afterMember ((key, w) :: members) frames

/-- Begin a value. -/
def start (frames : List Frame) : Token → Option Expected
  | .null => some (deliver .null frames)
  | .bool b => some (deliver (.bool b) frames)
  | .number n => some (deliver (.number n) frames)
  | .text s => some (deliver (.text s) frames)
  | .openArray => some (.firstItem frames)
  | .openObject => some (.firstKey frames)
  | _ => none

/-- Take the next token. -/
def step : Expected → Token → Option Expected
  | .value frames, t => start frames t
  | .firstItem frames, .closeArray => some (deliver (.array []) frames)
  | .firstItem frames, t => start (.array [] :: frames) t
  | .afterItem items frames, .comma => some (.value (.array items :: frames))
  | .afterItem items frames, .closeArray => some (deliver (.array items.reverse) frames)
  | .firstKey frames, .closeObject => some (deliver (.object []) frames)
  | .firstKey frames, .text key => some (.colon [] key frames)
  | .key members frames, .text key => some (.colon members key frames)
  | .colon members key frames, .colon => some (.value (.object members key :: frames))
  | .afterMember members frames, .comma => some (.key members frames)
  | .afterMember members frames, .closeObject => some (deliver (.object members.reverse) frames)
  | _, _ => none

/-- The value that a sequence of tokens is. -/
def ofTokens? (ts : List Token) : Option Written :=
  match ts.foldlM step (.value []) with
  | some (.done w) => some w
  | _ => none

/-- The shape of a text. -/
def parse (s : String) : Option Written := do
  ofTokens? (← tokens? s.toList)

/-! ### Meaning -/

/-- The greatest depth of nesting that a text may have. -/
def nestingLimit : Nat := 127

/-- The number that a numeral stands for: an integer if it is written as one and has a
representation of 64 bits, signed or unsigned, else the nearest float. Minus zero is a float. -/
def number? (n : Numeral) : Option Json :=
  let d := n.decimal
  let i : Int := if d.negative then -(d.coefficient : Int) else d.coefficient
  if n.integral ∧ Int64.minValue.toInt ≤ i ∧ i < UInt64.size ∧ ¬(d.negative ∧ i = 0) then
    some (.integer i)
  else
    let x := Binary64.ofDecimal d
    if x.isFinite then some (.float x) else none

mutual

/-- The tree that a text describes, nested at most `limit` deep. -/
def treeWithin (limit : Nat) : Written → Option Json
  | null => some .null
  | bool b => some (.bool b)
  | number n => number? n
  | text s => s.map .string
  | array items => if limit = 0 then none else (treesWithin (limit - 1) items).map .array
  | object members =>
    if limit = 0 then none else (membersWithin (limit - 1) members).map .object

/-- The trees of a sequence. -/
def treesWithin (limit : Nat) : List Written → Option (List Json)
  | [] => some []
  | w :: ws => do
    let j ← w.treeWithin limit
    let js ← treesWithin limit ws
    return j :: js

/-- The trees of members, with their keys. -/
def membersWithin (limit : Nat) : List (Option String × Written) → Option (List (String × Json))
  | [] => some []
  | (key, w) :: ms => do
    let k ← key
    let j ← w.treeWithin limit
    let js ← membersWithin limit ms
    return (k, j) :: js

end

/-- The tree that a text describes. -/
def tree? (w : Written) : Option Json :=
  w.treeWithin nestingLimit

/-- The tree that a text describes to a reader of records with the given fields: a member of the
outermost object whose key is none of them is passed over without regard to its meaning. -/
def record? (fields : List String) : Written → Option Json
  | object members =>
    if members.all fun m => m.1.isSome then
      let known := members.filter fun m => m.1.any fields.contains
      (membersWithin (nestingLimit - 1) known).map .object
    else none
  | w => w.tree?

end Written

/-! ### Reading -/

/-- The tree that a text describes, with its members in order. -/
def parse (s : String) : Option Json := do
  let w ← Written.parse s
  let j ← w.tree?
  return j.ordered

/-- The tree that the UTF-8 form of a text describes, with its members in order. -/
def ofBytes (bytes : List UInt8) : Option Json := do
  parse (← String.fromUTF8? ⟨bytes.toArray⟩)

end Json

end VersionedModel
