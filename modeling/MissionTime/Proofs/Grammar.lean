import Mathlib.Data.List.Chain
import MissionTime.Syntax.Expression

/-!
# The Grammar of Formulas

The language of formulas, defined without a reader. Tokens *derive* a formula by the grammar

```
formula  :=  implies ("<->" implies)*
implies  :=  or ("->" or)*
or       :=  xor ("|" xor)*
xor      :=  and ("^" and)*
and      :=  until ("&" until)*
until    :=  unary (("U" | "R") interval unary)*
unary    :=  "~" unary  |  ("F" | "G") interval unary
          |  "true"  |  "false"  |  variable  |  "(" formula ")"
interval :=  "[" number "," number "]"
```

and texts *spell* tokens with any blanks around them. The levels of the grammar are numbered
from `unary`, which is level 0, to `formula`, which is level 6. A chain of infix operators is
derived from its left end, which groups it to the left.

The definitions do not refer to the reader: the blanks, the words of the tokens, the levels of the
operators and the formulas that they make are written out once more. That the reader has the same
is proved where the two meet.

Each derivation carries its *nesting*: the greatest number of unary expressions of which each
is part of the one before. Operators in a chain stand side by side and add none.

## Main definitions

* `DerivesInterval`, `DerivesInfix`, `Derives`: tokens and what they derive.
* `Joins`: infix operators and the formulas that they make of their operands.
* `Blank`, `Word`, `Spells`: texts and the tokens they spell.
* `Denotes`: texts and the formula they are to be read as, with the limit on nesting.

## Main results

* `Derives.mono`: a tighter expression is an expression of every looser level.
* `Derives.separable`: in derived tokens, numbers stand only after brackets and commas.
-/

namespace MissionTime.Syntax

open Text

/-! ### Derivations -/

/-- An interval is two numerals in brackets that have the values of its bounds. -/
inductive DerivesInterval : List Token → Interval → Prop
  | bounds {a b : Numeral} {I : Interval} (ha : a.value = I.lower.toNat)
      (hb : b.value = I.upper.toNat) :
      DerivesInterval [.openBracket, .number a, .comma, .number b, .closeBracket] I

/-- The infix operators and their levels. -/
inductive DerivesInfix : Nat → List Token → InfixOperator → Prop
  | temporal {op : BinaryTemporal} {ts : List Token} {I : Interval}
      (hI : DerivesInterval ts I) : DerivesInfix 1 (.binary op :: ts) (.temporal op I)
  | and : DerivesInfix 2 [.connective .and] (.connective .and)
  | xor : DerivesInfix 3 [.connective .xor] (.connective .xor)
  | or : DerivesInfix 4 [.connective .or] (.connective .or)
  | implies : DerivesInfix 5 [.connective .implies] (.connective .implies)
  | equiv : DerivesInfix 6 [.connective .equiv] (.connective .equiv)

/-- The formula that an infix operator makes of the operands on its left and on its right. -/
inductive Joins : InfixOperator → Formula → Formula → Formula → Prop
  | connective (op : Connective) (l r : Formula) :
      Joins (.connective op) l r (.connective op l r)
  | temporal (op : BinaryTemporal) (I : Interval) (l r : Formula) :
      Joins (.temporal op I) l r (.binary op l I r)

/-- **Derivations.** `Derives n k ts f` says that the tokens `ts` are an expression of level
`n`, that the formula is `f`, and that unary expressions are nested `k` deep in it. A unary
expression is one level deeper than what it is made of, and a chain is as deep as its deepest
operand. -/
inductive Derives : Nat → Nat → List Token → Formula → Prop
  | constant (value : Bool) : Derives 0 1 [.constant value] (.const value)
  | variable {id : Numeral} {i : UInt32} (hid : id.value = i.toNat) :
      Derives 0 1 [.variable id] (.var i)
  | negation {k : Nat} {ts : List Token} {x : Formula} (hx : Derives 0 k ts x) :
      Derives 0 (k + 1) (.negation :: ts) (.neg x)
  | unary {k : Nat} {op : UnaryTemporal} {is ts : List Token} {I : Interval} {x : Formula}
      (hI : DerivesInterval is I) (hx : Derives 0 k ts x) :
      Derives 0 (k + 1) (.unary op :: (is ++ ts)) (.unary op I x)
  | parens {k : Nat} {ts : List Token} {x : Formula} (hx : Derives 6 k ts x) :
      Derives 0 (k + 1) (.openParen :: (ts ++ [.closeParen])) x
  | single {n k : Nat} {ts : List Token} {x : Formula} (hx : Derives n k ts x) :
      Derives (n + 1) k ts x
  | chain {n k m : Nat} {ts os us : List Token} {op : InfixOperator} {l r x : Formula}
      (hl : Derives (n + 1) k ts l) (hop : DerivesInfix (n + 1) os op)
      (hr : Derives n m us r) (hx : Joins op l r x) :
      Derives (n + 1) (max k m) (ts ++ (os ++ us)) x

/-- An expression of a level is one of every looser level. -/
theorem Derives.mono {n m k : Nat} {ts : List Token} {f : Formula} (h : Derives n k ts f)
    (hnm : n ≤ m) : Derives m k ts f := by
  induction hnm with
  | refl => exact h
  | step _ ih => exact .single ih

/-- The operator of a connective is derived at the level of the connective. -/
theorem derivesInfix_connective (op : Connective) :
    DerivesInfix (connectiveLevel op) [.connective op] (.connective op) := by
  cases op with
  | and => exact .and
  | xor => exact .xor
  | or => exact .or
  | implies => exact .implies
  | equiv => exact .equiv

/-- No connective binds looser than a whole formula. -/
theorem connectiveLevel_le (op : Connective) : connectiveLevel op ≤ 6 := by
  cases op <;> decide

/-- An infix operator takes at least one token. -/
theorem DerivesInfix.length_pos {n : Nat} {ts : List Token} {op : InfixOperator}
    (h : DerivesInfix n ts op) : 0 < ts.length := by
  cases h <;> exact Nat.zero_lt_succ _

/-! ### Spelled texts -/

/-- The blanks: space, tab, carriage return and line feed. -/
def Blank (c : Char) : Prop :=
  c ∈ [' ', '\t', '\r', '\n']

instance (c : Char) : Decidable (Blank c) :=
  inferInstanceAs (Decidable (c ∈ _))

/-- **Words.** The characters that a token is written with. A variable is the letter `p` and the
digits of its number. -/
inductive Word : Token → List Char → Prop
  | constantTrue : Word (.constant true) "true".toList
  | constantFalse : Word (.constant false) "false".toList
  | variable (id : Numeral) : Word (.variable id) ('p' :: id.digits)
  | number (n : Numeral) : Word (.number n) n.digits
  | negation : Word .negation "~".toList
  | and : Word (.connective .and) "&".toList
  | xor : Word (.connective .xor) "^".toList
  | or : Word (.connective .or) "|".toList
  | implies : Word (.connective .implies) "->".toList
  | equiv : Word (.connective .equiv) "<->".toList
  | finally : Word (.unary .finally) "F".toList
  | globally : Word (.unary .globally) "G".toList
  | until : Word (.binary .until) "U".toList
  | release : Word (.binary .release) "R".toList
  | openParen : Word .openParen "(".toList
  | closeParen : Word .closeParen ")".toList
  | openBracket : Word .openBracket "[".toList
  | closeBracket : Word .closeBracket "]".toList
  | comma : Word .comma ",".toList

/-- **Spelling.** A text spells tokens if it consists of their words in order, with any blanks
before, between and after them, and none inside. -/
inductive Spells : List Token → List Char → Prop
  | nil {blanks : List Char} (h : ∀ c ∈ blanks, Blank c) : Spells [] blanks
  | cons {t : Token} {ts : List Token} {blanks word text : List Char}
      (h : ∀ c ∈ blanks, Blank c) (hword : Word t word) (htext : Spells ts text) :
      Spells (t :: ts) (blanks ++ (word ++ text))

/-- **Denotation.** A text denotes the formula that the tokens it spells derive, if in the
derivation no unary expression lies under more than 63 others. -/
def Denotes (text : List Char) (f : Formula) : Prop :=
  ∃ ts k, Spells ts text ∧ Derives 6 k ts f ∧ k ≤ 64

/-! ### Where numbers stand -/

/-- A token may follow another one: a number follows only a bracket or a comma. -/
def MayFollow (t u : Token) : Prop :=
  ∀ n, u = .number n → t = .openBracket ∨ t = .comma

/-- **Separable** tokens begin with no number, and each number among them stands behind a
bracket or a comma. So no two tokens run together where they are spelled without blanks. -/
structure Separable (ts : List Token) : Prop where
  isChain : ts.IsChain MayFollow
  head?_ne : ∀ n, ts.head? ≠ some (.number n)

/-- Separable tokens may stand side by side. -/
theorem Separable.append {ts us : List Token} (ht : Separable ts) (hu : Separable us) :
    Separable (ts ++ us) := by
  refine ⟨List.isChain_append.mpr ⟨ht.isChain, hu.isChain, ?_⟩, fun n => ?_⟩
  · rintro t - u hhead n rfl
    exact absurd hhead (hu.head?_ne n)
  · cases ts with
    | nil => exact hu.head?_ne n
    | cons t ts => exact ht.head?_ne n

/-- A token other than a number is separable. -/
theorem separable_singleton {t : Token} (h : ∀ n, t ≠ .number n) : Separable [t] :=
  ⟨.singleton t, fun n hn => h n (Option.some.inj hn)⟩

theorem Separable.cons {t : Token} {ts : List Token} (h : ∀ n, t ≠ .number n)
    (hts : Separable ts) : Separable (t :: ts) :=
  (separable_singleton h).append hts

theorem DerivesInterval.separable {ts : List Token} {I : Interval}
    (h : DerivesInterval ts I) : Separable ts := by
  cases h with
  | bounds _ _ => exact ⟨by simp [MayFollow], by simp⟩

theorem DerivesInfix.separable {n : Nat} {ts : List Token} {op : InfixOperator}
    (h : DerivesInfix n ts op) : Separable ts := by
  cases h with
  | temporal hI => exact hI.separable.cons (by simp)
  | and => exact separable_singleton (by simp)
  | xor => exact separable_singleton (by simp)
  | or => exact separable_singleton (by simp)
  | implies => exact separable_singleton (by simp)
  | equiv => exact separable_singleton (by simp)

/-- **Derived tokens are separable.** Induction on the derivation: all its parts are. -/
theorem Derives.separable {n k : Nat} {ts : List Token} {f : Formula}
    (h : Derives n k ts f) : Separable ts := by
  induction h with
  | constant value => exact separable_singleton (by simp)
  | «variable» _ => exact separable_singleton (by simp)
  | negation _ ih => exact ih.cons (by simp)
  | unary hI _ ih => exact (hI.separable.append ih).cons (by simp)
  | parens _ ih => exact (ih.append (separable_singleton (by simp))).cons (by simp)
  | single _ ih => exact ih
  | chain _ hop _ _ ihl ihr => exact ihl.append (hop.separable.append ihr)

end MissionTime.Syntax
