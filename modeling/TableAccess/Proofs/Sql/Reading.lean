import TableAccess.Proofs.Sql.Written
import TableAccess.Sql.Condition

/-!
Reading conditions.

Condition text is read in three steps. `lex` cuts it into words, signs and marks, a word being a
keyword or a name, and takes each value as an operand. `items?` reads predicates: a comparison, a
pattern, a membership with its list in parentheses, a range with the `and` between its bounds, a
test for null and a test of bits are each read as one item, and every predicate gets its number.
What is left are parentheses and the words `and`, `or` and `not`, and `readFactor` and
`readOperator` put the predicates together: what stands in parentheses is read by itself, `not` goes
with the factor after it, `and` joins factors and `or` what `and` has joined.
-/

namespace TableAccess.Reading

/-! ### Words, signs and marks -/

/-- The words that conditions are made with. -/
inductive Keyword where
  | and | or | not | in | like | is | null | between
  deriving DecidableEq

def Keyword.text : Keyword → String
  | and => "and"
  | or => "or"
  | not => "not"
  | .in => "in"
  | like => "like"
  | is => "is"
  | null => "null"
  | between => "between"

/-- The keyword that a word is, in letters of either case. -/
def keyword? (word : String) : Option Keyword :=
  [.and, .or, .not, .in, .like, .is, .null, .between].find? fun k =>
    word.toList.map Char.toLower = k.text.toList

/-- The signs between operands. -/
inductive Sign where
  | compare (op : Comparison)
  | mask
  deriving DecidableEq

def Sign.text : Sign → String
  | compare op => op.symbol
  | mask => "&"

def sign? (cs : List Char) : Option Sign :=
  [.compare .eq, .compare .ne, .compare .lt, .compare .lte, .compare .gt, .compare .gte,
    .mask].find? fun s => cs = s.text.toList

/-- What condition text is cut into. -/
inductive Lexeme where
  | name (text : String)
  | keyword (k : Keyword)
  | sign (s : Sign)
  | opening
  | closing
  | comma
  | operand (v : Value)
  | unknown (cs : List Char)
  deriving DecidableEq

/-- The kinds of characters: words and signs are runs of one kind, and marks stand alone. -/
inductive Glyph where
  | word | sign | mark
  deriving DecidableEq

/-- The kind of a character. The dot between the parts of a name belongs to it. -/
def glyph (c : Char) : Glyph :=
  if Ident.isWord c || c == '.' then .word
  else if ['=', '!', '<', '>', '&'].contains c then .sign
  else .mark

/-- What a mark stands for; a blank only parts what is around it. -/
def mark (c : Char) : List Lexeme :=
  if c = '(' then [.opening]
  else if c = ')' then [.closing]
  else if c = ',' then [.comma]
  else if Dialect.isBlank c then []
  else [.unknown [c]]

/-- What a run of characters of one kind stands for. -/
def ended : Glyph → List Char → List Lexeme
  | .word, cs =>
    match keyword? (String.ofList cs) with
    | some k => [.keyword k]
    | none => [.name (String.ofList cs)]
  | .sign, cs =>
    match sign? cs with
    | some s => [.sign s]
    | none => [.unknown cs]
  | .mark, cs => cs.flatMap mark

/-- Cuts a text after a run of characters of one kind. -/
def lexFrom (kind : Glyph) (run : List Char) : Written → List Lexeme
  | [] => ended kind run
  | .value v :: w => ended kind run ++ .operand v :: lexFrom .mark [] w
  | .char c :: w =>
    if glyph c = kind ∧ kind ≠ .mark then lexFrom kind (run ++ [c]) w
    else ended kind run ++ lexFrom (glyph c) [c] w

def lex (w : Written) : List Lexeme := lexFrom .mark [] w

/-! ### Predicates -/

/-- A predicate as it is read, with its operands. -/
inductive Atom where
  | compare (op : Comparison) (column : String) (v : Value)
  | among (column : String) (vs : List Value) (negated : Bool)
  | like (column : String) (pattern : Value)
  | null (column : String) (negated : Bool)
  | between (column : String) (low high : Value)
  | bits (column : String) (mask target : Value)
  deriving DecidableEq

/-- The operands of a list up to its closing parenthesis, and what follows. -/
def operands? : List Lexeme → Option (List Value × List Lexeme)
  | .operand v :: .closing :: ls => some ([v], ls)
  | .operand v :: .comma :: ls => (operands? ls).map fun (vs, rest) => (v :: vs, rest)
  | _ => none

/-- The predicate that a text starts with, and what follows. -/
def atom? : List Lexeme → Option (Atom × List Lexeme)
  | .name c :: .sign (.compare op) :: .operand v :: ls => some (.compare op c v, ls)
  | .name c :: .sign .mask :: .operand m :: .sign (.compare .eq) :: .operand v :: ls =>
    some (.bits c m v, ls)
  | .name c :: .keyword .like :: .operand v :: ls => some (.like c v, ls)
  | .name c :: .keyword .is :: .keyword .null :: ls => some (.null c false, ls)
  | .name c :: .keyword .is :: .keyword .not :: .keyword .null :: ls => some (.null c true, ls)
  | .name c :: .keyword .between :: .operand a :: .keyword .and :: .operand b :: ls =>
    some (.between c a b, ls)
  | .name c :: .keyword .in :: .opening :: ls =>
    (operands? ls).map fun (vs, rest) => (.among c vs false, rest)
  | .name c :: .keyword .not :: .keyword .in :: .opening :: ls =>
    (operands? ls).map fun (vs, rest) => (.among c vs true, rest)
  | _ => none

theorem length_operands? {ls rest : List Lexeme} {vs : List Value}
    (h : operands? ls = some (vs, rest)) : rest.length < ls.length := by
  fun_induction operands? ls generalizing vs with
  | case1 v ls =>
    cases h
    simp only [List.length_cons]
    omega
  | case2 v ls ih =>
    obtain ⟨⟨us, r⟩, hr, hu⟩ := Option.map_eq_some_iff.mp h
    cases hu
    have := ih hr
    simp only [List.length_cons]
    omega
  | case3 => cases h

theorem length_atom? {ls rest : List Lexeme} {a : Atom} (h : atom? ls = some (a, rest)) :
    rest.length < ls.length := by
  unfold atom? at h
  split at h
  case h_7 | h_8 =>
    obtain ⟨⟨us, r⟩, hr, hu⟩ := Option.map_eq_some_iff.mp h
    cases hu
    have := length_operands? hr
    simp only [List.length_cons]
    omega
  all_goals
    cases h
    try (simp only [List.length_cons]; omega)

/-- What a condition is put together from. Predicates are numbered in the order of the text. -/
inductive Item where
  | atom (a : Atom) (number : Nat)
  | and | or | not
  | opening
  | closing
  deriving DecidableEq

/-- The items of a text, whose first predicate has number `n`. -/
def items? (n : Nat) (ls : List Lexeme) : Option (List Item) :=
  match ls with
  | [] => some []
  | .opening :: ls => (items? n ls).map (.opening :: ·)
  | .closing :: ls => (items? n ls).map (.closing :: ·)
  | .keyword .and :: ls => (items? n ls).map (.and :: ·)
  | .keyword .or :: ls => (items? n ls).map (.or :: ·)
  | .keyword .not :: ls => (items? n ls).map (.not :: ·)
  | l :: ls =>
    match h : atom? (l :: ls) with
    | some (a, rest) => (items? (n + 1) rest).map (.atom a n :: ·)
    | none => none
termination_by ls.length
decreasing_by
  all_goals first | exact length_atom? h | simp

/-! ### Precedence -/

/-- A boolean expression over numbered predicates. -/
inductive Formula where
  | atom (a : Atom) (number : Nat)
  | not (f : Formula)
  | and (f g : Formula)
  | or (f g : Formula)
  deriving DecidableEq

namespace Formula

/-- The value of an expression, given the values of its predicates by their numbers. -/
def value (truth : Nat → Bool) : Formula → Bool
  | atom _ n => truth n
  | not f => !f.value truth
  | and f g => f.value truth && g.value truth
  | or f g => f.value truth || g.value truth

/-- The predicates of an expression from left to right, with their numbers. -/
def atoms : Formula → List (Atom × Nat)
  | atom a n => [(a, n)]
  | not f => f.atoms
  | and f g => f.atoms ++ g.atoms
  | or f g => f.atoms ++ g.atoms

end Formula

/-- What has been read between a pair of parentheses where a factor is expected: what stands before
the last `or`, what stands between it and the last `and`, and whether a `not` comes last. -/
structure Level where
  alternatives : Option Formula := none
  factors : Option Formula := none
  negated : Bool := false

/-- The factors with one more. -/
def Level.factor (level : Level) (f : Formula) : Formula :=
  let f := if level.negated then .not f else f
  match level.factors with
  | none => f
  | some g => .and g f

/-- The alternatives with one more. -/
def either : Option Formula → Formula → Formula
  | none, f => f
  | some g, f => .or g f

mutual

/-- Reads on where a factor is expected. `outer` are the levels around this one. -/
def readFactor (level : Level) (outer : List Level) : List Item → Option Formula
  | .atom a n :: items => readOperator level.alternatives (level.factor (.atom a n)) outer items
  | .not :: items => readFactor { level with negated := !level.negated } outer items
  | .opening :: items => readFactor {} (level :: outer) items
  | _ => none

/-- Reads on after a factor. -/
def readOperator (alternatives : Option Formula) (factors : Formula) (outer : List Level) :
    List Item → Option Formula
  | [] =>
    match outer with
    | [] => some (either alternatives factors)
    | _ => none
  | .and :: items => readFactor ⟨alternatives, some factors, false⟩ outer items
  | .or :: items => readFactor ⟨some (either alternatives factors), none, false⟩ outer items
  | .closing :: items =>
    match outer with
    | [] => none
    | level :: outer =>
      readOperator level.alternatives (level.factor (either alternatives factors)) outer items
  | _ => none

end

/-- The boolean expression that a condition is read as, each free question mark as its argument. -/
def read? (q : Sql) : Option Formula := (items? 0 (lex q.inline)).bind (readFactor {} [])

example : read? ⟨"a is null OR b is null And c is null", []⟩ =
    some (.or (.atom (.null "a" false) 0)
      (.and (.atom (.null "b" false) 1) (.atom (.null "c" false) 2))) := by
  decide +kernel

example : read? ⟨"a between ? and ? and not(b in (?, ?) or c = ?)",
      [.int 1, .int 2, .int 3, .int 4, .int 5]⟩ =
    some (.and (.atom (.between "a" (.int 1) (.int 2)) 0)
      (.not (.or (.atom (.among "b" [.int 3, .int 4] false) 1)
        (.atom (.compare .eq "c" (.int 5)) 2)))) := by
  decide +kernel

end TableAccess.Reading
