import TableAccess.Failure
import TableAccess.Sql.Fragment

/-!
Conditions and what they compile to.

A condition is a tree: leaves are predicates over one column, inner nodes groups that hold if all or
if any of their children do, and a condition of the caller's own is a function that extends the
arguments collected so far. A child that compiles to no text says nothing and is left out; a group
that must hold if any child does is put in parentheses as soon as two children say something, which
is all the precedence of `and` over `or` asks for.
-/

namespace TableAccess

/-- The comparisons. -/
inductive Comparison where
  | eq | ne | lt | lte | gt | gte
  deriving DecidableEq

def Comparison.symbol : Comparison → String
  | eq => "="
  | ne => "!="
  | lt => "<"
  | lte => "<="
  | gt => ">"
  | gte => ">="

/-- Where a text pattern is open: 0 at both ends, 1 before the text, 2 after it. Other numbers are
no pattern. -/
def likePattern (style : Int) (text : String) : Option String :=
  if style = 0 then some ("%" ++ text ++ "%")
  else if style = 1 then some ("%" ++ text)
  else if style = 2 then some (text ++ "%")
  else none

/-- A condition on one column; `scalar` is condition text of its own. -/
inductive Predicate where
  | compare (op : Comparison) (column : String) (value : Value)
  | among (column : String) (values : List Value) (negated : Bool)
  | like (column text : String) (style : Int)
  | null (column : String) (negated : Bool)
  | between (column : String) (low high : Option Value)
  | scalar (text : String)
  | bits (column : String) (mask target : Value)
  deriving DecidableEq

namespace Predicate

/-- A range in which an absent bound is open. -/
def range (column : String) (low high : Value) : Predicate :=
  between column low.present? high.present?

/-- The text and the arguments of a predicate. Membership in an empty list is refused; a pattern
without text, an unknown pattern style and a range without bounds say nothing. -/
def compile : Predicate → Except Failure Sql
  | compare op column value =>
    .ok (Sql.raw (column ++ " " ++ op.symbol ++ " ") ++ Sql.bind value)
  | among column values negated =>
    if values.isEmpty then .error (.noParamValues column)
    else
      .ok (Sql.raw (column ++ (if negated then " not in (" else " in (")) ++ Sql.bindList values
        ++ Sql.raw ")")
  | like column text style =>
    if text.isEmpty then .ok Sql.empty
    else
      match likePattern style text with
      | none => .ok Sql.empty
      | some pattern => .ok (Sql.raw (column ++ " like ") ++ Sql.bind (.text pattern))
  | null column negated =>
    .ok (Sql.raw (column ++ (if negated then " is not null" else " is null")))
  | between _ none none => .ok Sql.empty
  | between column (some low) none => .ok (Sql.raw (column ++ " >= ") ++ Sql.bind low)
  | between column none (some high) => .ok (Sql.raw (column ++ " <= ") ++ Sql.bind high)
  | between column (some low) (some high) =>
    .ok (Sql.raw (column ++ " between ") ++ Sql.bind low ++ Sql.raw " and " ++ Sql.bind high)
  | scalar text => .ok (Sql.raw text)
  | bits column mask target =>
    .ok (Sql.raw (column ++ " & ") ++ Sql.bind mask ++ Sql.raw " = " ++ Sql.bind target)

end Predicate

/-- How a group's children are joined. -/
inductive Logic where
  | and | or
  deriving DecidableEq

/-- A tree of conditions. A condition of the caller's own is given the arguments collected so far
and answers with its text and the arguments from there on. -/
inductive Condition where
  | leaf (p : Predicate)
  | group (logic : Logic) (children : List Condition)
  | custom (compile : List Value → Except Failure Sql)

namespace Logic

def separator : Logic → String
  | and => " and "
  | or => " or "

/-- The fragments of a group as one text; there are no empty ones among them. -/
def join (logic : Logic) (fragments : List String) : String :=
  let joined := logic.separator.intercalate fragments
  if logic = or ∧ 1 < fragments.length then "(" ++ joined ++ ")" else joined

end Logic

namespace Condition

mutual

/-- The text of a condition, and the given arguments followed by its own. -/
def compile : Condition → List Value → Except Failure Sql
  | leaf p, args => do
    let q ← p.compile
    return ⟨q.text, args ++ q.args⟩
  | custom f, args => f args
  | group logic children, args => do
    let (fragments, args) ← compileAll children args
    return ⟨logic.join fragments, args⟩

/-- The texts of the children that say something, and the arguments of all children. -/
def compileAll : List Condition → List Value → Except Failure (List String × List Value)
  | [], args => .ok ([], args)
  | c :: cs, args => do
    let q ← compile c args
    let (fragments, args) ← compileAll cs q.args
    return (if q.text.isEmpty then fragments else q.text :: fragments, args)

end

end Condition

/-- A group of conditions at the root of a tree. -/
structure Matcher where
  logic : Logic := .and
  children : List Condition := []

namespace Matcher

/-- The group as a condition, to be nested in another. -/
def toCondition (m : Matcher) : Condition := .group m.logic m.children

/-- The text of the group, and the given arguments followed by its own. -/
def compile (m : Matcher) (args : List Value) : Except Failure Sql := m.toCondition.compile args

/-- The group by itself. -/
def build (m : Matcher) : Except Failure Sql := m.compile []

/-- Whether a column equals a value. -/
def equals (column : String) (v : Value) : Matcher := ⟨.and, [.leaf (.compare .eq column v)]⟩

/-- Whether a column is one of some integers. -/
def among (column : String) (ids : List Int64) : Matcher :=
  ⟨.and, [.leaf (.among column (ids.map .int) false)]⟩

end Matcher

end TableAccess
