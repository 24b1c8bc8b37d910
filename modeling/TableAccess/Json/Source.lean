import TableAccess.Json.Lexer

/-!
The syntax tree of JSON text.

A tree is what the text says and no more: numerals as written, members in the order written and as
often as written. The reader is one fold over the tokens with the containers that are still open on
a stack, so a text may be nested to any depth.
-/

namespace TableAccess.Json

/-- JSON text as a tree. -/
inductive Source where
  | null
  | bool (b : Bool)
  | numeral (n : Numeral)
  | quoted (units : List Nat)
  | array (items : List Source)
  | object (members : List (List Nat × Source))

namespace Source

/-- A container that is still open. Items and members are kept last first. -/
inductive Frame where
  | array (items : List Source)
  | object (members : List (List Nat × Source)) (name : List Nat)

/-- What may come next. -/
inductive Expect where
  | value
  | itemOrClose
  | nameOrClose (members : List (List Nat × Source))
  | name (members : List (List Nat × Source))
  | colon (members : List (List Nat × Source)) (name : List Nat)
  | afterItem (items : List Source)
  | afterMember (members : List (List Nat × Source))
  | nothing (whole : Source)

/-- The open containers, innermost first, and what may come next. -/
structure State where
  frames : List Frame
  expect : Expect

/-- A value is complete: it goes into the innermost open container. -/
def State.close (v : Source) : List Frame → State
  | [] => ⟨[], .nothing v⟩
  | .array items :: frames => ⟨frames, .afterItem (v :: items)⟩
  | .object members name :: frames => ⟨frames, .afterMember ((name, v) :: members)⟩

/-- A token where a value may stand. -/
def State.value (frames : List Frame) : Token → Option State
  | .null => some (close .null frames)
  | .bool b => some (close (.bool b) frames)
  | .numeral n => some (close (.numeral n) frames)
  | .quoted units => some (close (.quoted units) frames)
  | .openArray => some ⟨.array [] :: frames, .itemOrClose⟩
  | .openObject => some ⟨frames, .nameOrClose []⟩
  | _ => none

/-- One token. -/
def State.step (s : State) (t : Token) : Option State :=
  match s.expect, t with
  | .value, t => value s.frames t
  | .itemOrClose, .closeArray => some (close (.array []) (s.frames.drop 1))
  | .itemOrClose, t => value s.frames t
  | .nameOrClose _, .closeObject => some (close (.object []) s.frames)
  | .nameOrClose members, .quoted name => some ⟨s.frames, .colon members name⟩
  | .name members, .quoted name => some ⟨s.frames, .colon members name⟩
  | .colon members name, .colon => some ⟨.object members name :: s.frames, .value⟩
  | .afterItem items, .comma => some ⟨.array items :: s.frames, .value⟩
  | .afterItem items, .closeArray => some (close (.array items.reverse) s.frames)
  | .afterMember members, .comma => some ⟨s.frames, .name members⟩
  | .afterMember members, .closeObject => some (close (.object members.reverse) s.frames)
  | _, _ => none

/-- Reads tokens on from a state. -/
def State.run : State → List Token → Option Source
  | s, [] =>
    match s.expect with
    | .nothing tree => some tree
    | _ => none
  | s, t :: ts => (s.step t).bind (run · ts)

/-- The tree of a text that is one JSON value. -/
def ofText? (cs : List Char) : Option Source := (tokens? cs).bind (State.run ⟨[], .value⟩)

end Source

end TableAccess.Json
