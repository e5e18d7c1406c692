import Relief.Proofs.Literals
import Relief.Expr.Basic

set_option autoImplicit false

/-! # Spelling: an expression is known by its text

A text begins with a word that no parenthesis, comma or space is part of. When the word stands
alone, the expression is a leaf, and its word names the coordinate, the whole number or the number
(`same_of_leaf`). Otherwise an argument list follows, and the word names what was applied to it
(`Callee`). Arguments end where a comma, a space or a closing parenthesis follows, so that the text
of an expression is determined by any text that it starts (`splits`). What is lost is which
NaN a literal was. -/

namespace Relief

open Float.Model.UnpackedFloat (Sign)
open Decimal (isDigit isNumeric IsNumeral AllDigits allDigits_toDigits signMark spell32_cases
  spell32_of_isNaN spell32_injective)

namespace Expr

/-! ## Equality up to NaNs -/

/-- Two expressions with the same shape, coordinates, operations and whole numbers, whose numbers
    have the same bits or are both NaNs. -/
inductive Same : Expr → Expr → Prop
  | var (axis : Axis) : Same (.var axis) (.var axis)
  | int (n : Int32) : Same (.int n) (.int n)
  | float {x y : Float32} (h : x.toBits = y.toBits ∨ (x.isNaN = true ∧ y.isNaN = true)) :
    Same (.float x) (.float y)
  | toFloat {a b : Expr} (h : Same a b) : Same (.toFloat a) (.toFloat b)
  | toInt {a b : Expr} (h : Same a b) : Same (.toInt a) (.toInt b)
  | unary (op : UnaryOp) {a b : Expr} (h : Same a b) : Same (.unary op a) (.unary op b)
  | binary (op : BinaryOp) {a a' b b' : Expr} (h : Same a b) (h' : Same a' b') :
    Same (.binary op a a') (.binary op b b')
  | vec2 {x y x' y' : Expr} (hx : Same x x') (hy : Same y y') : Same (.vec2 x y) (.vec2 x' y')
  | vec3 {x y z x' y' z' : Expr} (hx : Same x x') (hy : Same y y') (hz : Same z z') :
    Same (.vec3 x y z) (.vec3 x' y' z')
  | vec4 {x y z w x' y' z' w' : Expr} (hx : Same x x') (hy : Same y y') (hz : Same z z')
    (hw : Same w w') : Same (.vec4 x y z w) (.vec4 x' y' z' w')

/-- The number literals of an expression. -/
def literals : Expr → List Float32
  | var _ | int _ => []
  | float x => [x]
  | toFloat a | toInt a | unary _ a => a.literals
  | binary _ a b | vec2 a b => a.literals ++ b.literals
  | vec3 x y z => x.literals ++ (y.literals ++ z.literals)
  | vec4 x y z w => x.literals ++ (y.literals ++ (z.literals ++ w.literals))

/-! ## Words -/

/-- The characters that end a word. -/
def isDelimiter (c : Char) : Bool := c = '(' || c = ')' || c = ',' || c = ' '

/-- Whether a text consists of a word only. -/
def IsWord (cs : List Char) : Prop := ∀ c ∈ cs, isDelimiter c = false

theorem isWord_of_all {cs : List Char} (h : cs.all (fun c => !isDelimiter c) = true) : IsWord cs :=
  fun c hc => Bool.not_inj (List.all_eq_true.1 h c hc)

/-- Whether a text is empty or starts with what may follow an argument. -/
def Ends (cs : List Char) : Prop :=
  ∀ c, cs.head? = some c → c = ')' ∨ c = ',' ∨ c = ' '

/-- Whether a text is empty or starts with what ends a word. -/
def Delimits (cs : List Char) : Prop := ∀ c, cs.head? = some c → isDelimiter c = true

section

variable {cs cs' rest rest' : List Char}

theorem Ends.delimits (h : Ends rest) : Delimits rest := fun c hc => by
  obtain rfl | rfl | rfl := h c hc <;> rfl

theorem ends_nil : Ends [] := nofun

theorem ends_paren (rest : List Char) : Ends (')' :: rest) := fun _ h =>
  .inl (Option.some.inj h).symm

theorem ends_comma (rest : List Char) : Ends (',' :: rest) := fun _ h =>
  .inr (.inl (Option.some.inj h).symm)

theorem ends_space (rest : List Char) : Ends (' ' :: rest) := fun _ h =>
  .inr (.inr (Option.some.inj h).symm)

theorem IsWord.takeWhile_append (hcs : IsWord cs) (hrest : Delimits rest) :
    (cs ++ rest).takeWhile (fun c => !isDelimiter c) = cs :=
  (Json.takeWhile_append (fun c hc => by rw [hcs c hc]; rfl)
    fun c hc => by rw [hrest c hc]; rfl).1

/-- The word at the front of a text is determined by it. -/
theorem word_split (hcs : IsWord cs) (hcs' : IsWord cs') (hrest : Delimits rest)
    (hrest' : Delimits rest') (h : cs ++ rest = cs' ++ rest') : cs = cs' ∧ rest = rest' := by
  have hword := congrArg (List.takeWhile fun c => !isDelimiter c) h
  rw [hcs.takeWhile_append hrest, hcs'.takeWhile_append hrest'] at hword
  exact List.append_inj h (congrArg List.length hword)

end

/-! ## Calls -/

/-- What is applied to arguments. The four operations of arithmetic have no word in front of their
    arguments, so that the text up to there does not tell them apart. -/
inductive Callee where
  | float
  | int
  | function (op : UnaryOp)
  | group
  | vec2
  | vec3
  | vec4
deriving DecidableEq

namespace Callee

/-- The word in front of the arguments. -/
def name : Callee → List Char
  | float => "float".toList
  | int => "int".toList
  | function op => op.name.toList
  | group => []
  | vec2 => "vec2".toList
  | vec3 => "vec3".toList
  | vec4 => "vec4".toList

/-- Everything that can be applied. -/
def all : List Callee :=
  [float, int, function .sin, function .cos, function .tan, function .asin, function .acos,
    function .atan, group, vec2, vec3, vec4]

theorem mem_all (c : Callee) : c ∈ all := by
  cases c with
  | function op => cases op <;> decide
  | _ => decide

theorem name_injective : Function.Injective name := by
  have hall : ∀ c ∈ all, ∀ d ∈ all, c.name = d.name → c = d := by decide
  exact fun c d => hall c (mem_all c) d (mem_all d)

theorem isWord_name (c : Callee) : IsWord c.name := by
  have hall : ∀ c ∈ all, c.name.all (fun d => !isDelimiter d) = true := by decide
  exact isWord_of_all (hall c (mem_all c))

end Callee

/-- What an expression applies; a leaf applies nothing. -/
def callee? : Expr → Option Callee
  | var _ | int _ | float _ => none
  | toFloat _ => some .float
  | toInt _ => some .int
  | unary op _ => some (.function op)
  | binary _ _ _ => some .group
  | vec2 _ _ => some .vec2
  | vec3 _ _ _ => some .vec3
  | vec4 _ _ _ _ => some .vec4

/-- The text of the arguments, without the parenthesis in front of them. -/
def arguments : Expr → List Char
  | var _ | int _ | float _ => []
  | toFloat a | toInt a | unary _ a => a.spell ++ [')']
  | binary op a b => a.spell ++ ' ' :: (op.symbol.toList ++ ' ' :: (b.spell ++ [')']))
  | vec2 x y => x.spell ++ ',' :: ' ' :: (y.spell ++ [')'])
  | vec3 x y z => x.spell ++ ',' :: ' ' :: (y.spell ++ ',' :: ' ' :: (z.spell ++ [')']))
  | vec4 x y z w =>
    x.spell ++ ',' :: ' ' :: (y.spell ++ ',' :: ' ' :: (z.spell ++ ',' :: ' ' ::
      (w.spell ++ [')'])))

/-- **A call is its word and its arguments in parentheses.** -/
theorem spell_of_callee? {e : Expr} {c : Callee} (h : e.callee? = some c) :
    e.spell = c.name ++ '(' :: e.arguments := by
  cases e with
  | var | int | float => cases h
  | toFloat a | toInt a =>
    cases h
    rfl
  | unary op a =>
    cases h
    exact List.append_assoc op.name.toList ('(' :: a.spell) [')']
  | binary op a b =>
    cases h
    show ('(' :: a.spell) ++ (' ' :: op.symbol.toList) ++ (' ' :: b.spell) ++ [')'] = _
    rw [List.append_assoc, List.append_assoc]
    rfl
  | vec2 x y =>
    cases h
    show ("vec2(".toList ++ x.spell) ++ [',', ' '] ++ y.spell ++ [')'] = _
    rw [List.append_assoc, List.append_assoc, List.append_assoc]
    rfl
  | vec3 x y z =>
    cases h
    show ("vec3(".toList ++ x.spell) ++ [',', ' '] ++ y.spell ++ [',', ' '] ++ z.spell ++ [')'] = _
    rw [List.append_assoc, List.append_assoc, List.append_assoc, List.append_assoc,
      List.append_assoc]
    rfl
  | vec4 x y z w =>
    cases h
    show ("vec4(".toList ++ x.spell) ++ [',', ' '] ++ y.spell ++ [',', ' '] ++ z.spell ++ [',', ' ']
      ++ w.spell ++ [')'] = _
    rw [List.append_assoc, List.append_assoc, List.append_assoc, List.append_assoc,
      List.append_assoc, List.append_assoc, List.append_assoc]
    rfl

/-! ## Leaves -/

/-- The letters that number literals have and other leaves have not. -/
def isMark (c : Char) : Bool := c = '.' || c = 'e' || c = 'n' || c = 'N'

/-- No character of a decimal ends a word. -/
theorem isDelimiter_of_isNumeric {c : Char} (hc : isNumeric c = true) : isDelimiter c = false := by
  rw [Bool.eq_false_iff]
  intro h
  simp only [isDelimiter, Bool.or_eq_true, decide_eq_true_eq] at h
  obtain ((rfl | rfl) | rfl) | rfl := h <;> cases hc

theorem isMark_of_isDigit {c : Char} (hc : isDigit c = true) : isMark c = false := by
  rw [Bool.eq_false_iff]
  intro h
  simp only [isMark, Bool.or_eq_true, decide_eq_true_eq] at h
  obtain ((rfl | rfl) | rfl) | rfl := h <;> cases hc

section

variable {m n : Int32} {x y : Float32}

theorem mem_spell_var {axis : Axis} {c : Char} (hc : c ∈ (var axis).spell) :
    c = 'u' ∨ c = 'v' := by
  cases axis with
  | u => exact .inl (List.mem_singleton.1 hc)
  | v => exact .inr (List.mem_singleton.1 hc)

/-- A whole number is spelled in digits behind a minus sign or none. -/
theorem mem_spell_int {c : Char} (hc : c ∈ (int n).spell) : c = '-' ∨ isDigit c = true := by
  have hspell : (int n).spell = n.toInt.repr.toList :=
    congrArg String.toList Int.toString_eq_repr
  rw [hspell] at hc
  cases hn : n.toInt with
  | ofNat k =>
    rw [hn] at hc
    exact .inr (allDigits_toDigits k c (by rwa [← Nat.toList_repr]))
  | negSucc k =>
    have hrepr : (Int.negSucc k).repr.toList = '-' :: Nat.toDigits 10 k.succ := by
      rw [← Nat.toList_repr]
      exact String.toList_append
    rw [hn, hrepr, List.mem_cons] at hc
    exact hc.imp_right (allDigits_toDigits k.succ c)

theorem spell_int_injective (h : (int m).spell = (int n).spell) : m = n := by
  have hstring : toString m.toInt = toString n.toInt := String.toList_inj.1 h
  rw [Int.toString_eq_repr, Int.toString_eq_repr, Int.repr_inj, Int32.toInt_inj] at hstring
  exact hstring

/-- A number literal has a point or a letter. -/
theorem exists_isMark (x : Float32) : ∃ c ∈ (float x).spell, isMark c = true := by
  show ∃ c ∈ Decimal.Layout.expression.spell32 x, isMark c = true
  cases hx : x.isNaN with
  | true =>
    rw [spell32_of_isNaN .expression hx]
    exact ⟨'N', by decide, rfl⟩
  | false =>
    rcases spell32_cases hx with ⟨s, hinf⟩ | hnumeral
    · rw [hinf]
      exact ⟨'n', List.mem_append_right _ (by decide), rfl⟩
    · rcases hnumeral.mark with hpoint | hletter
      · exact ⟨'.', hpoint, rfl⟩
      · exact ⟨'e', hletter, rfl⟩

theorem isWord_spell_float (x : Float32) : IsWord (float x).spell := by
  show IsWord (Decimal.Layout.expression.spell32 x)
  cases hx : x.isNaN with
  | true =>
    rw [spell32_of_isNaN .expression hx]
    exact isWord_of_all rfl
  | false =>
    rcases spell32_cases hx with ⟨s, hinf⟩ | hnumeral
    · rw [hinf]
      cases s <;> exact isWord_of_all rfl
    · exact fun c hc => isDelimiter_of_isNumeric (hnumeral.all c hc)

/-- A NaN is not spelled like another number. -/
theorem isNaN_eq_of_spell_eq (h : (float x).spell = (float y).spell) (hx : x.isNaN = true) :
    y.isNaN = true := by
  by_contra hy
  have hnan : Decimal.Layout.expression.spell32 y = ['N', 'a', 'N'] :=
    h.symm.trans (spell32_of_isNaN .expression hx)
  rcases spell32_cases (Bool.eq_false_iff.2 hy) with ⟨s, hinf⟩ | hnumeral
  · rw [hnan] at hinf
    cases s <;> cases hinf
  · rw [hnan] at hnumeral
    cases hnumeral.all 'N' (List.mem_cons_self ..)

theorem same_of_spell_float (h : (float x).spell = (float y).spell) : Same (float x) (float y) := by
  cases hx : x.isNaN with
  | true => exact .float (.inr ⟨hx, isNaN_eq_of_spell_eq h hx⟩)
  | false =>
    have hy : y.isNaN = false := by
      rw [Bool.eq_false_iff]
      intro hy
      rw [isNaN_eq_of_spell_eq h.symm hy] at hx
      cases hx
    rw [spell32_injective .expression hx hy h]
    exact .float (.inl rfl)

end

section

variable {a b : Expr}

theorem isWord_of_leaf (ha : a.callee? = none) : IsWord a.spell := by
  cases a with
  | var axis =>
    intro c hc
    obtain rfl | rfl := mem_spell_var hc <;> rfl
  | int n =>
    intro c hc
    obtain rfl | hdigit := mem_spell_int hc
    · rfl
    · exact isDelimiter_of_isNumeric (by rw [isNumeric, hdigit, Bool.true_or]; rfl)
  | float x => exact isWord_spell_float x
  | _ => cases ha

/-- Leaves other than number literals have no letter of theirs. -/
theorem isMark_of_leaf {c : Char} (ha : a.callee? = none) (hfloat : ∀ x, a ≠ float x)
    (hc : c ∈ a.spell) : isMark c = false := by
  cases a with
  | var axis => obtain rfl | rfl := mem_spell_var hc <;> rfl
  | int n =>
    obtain rfl | hdigit := mem_spell_int hc
    · rfl
    · exact isMark_of_isDigit hdigit
  | float x => exact absurd rfl (hfloat x)
  | _ => cases ha

/-- A number literal is not spelled like another leaf. -/
theorem exists_float_of_leaf {x : Float32} (hb : b.callee? = none)
    (h : (float x).spell = b.spell) : ∃ y, b = float y := by
  obtain ⟨c, hc, hmark⟩ := exists_isMark x
  by_contra hne
  rw [h] at hc
  rw [isMark_of_leaf hb (fun y hy => hne ⟨y, hy⟩) hc] at hmark
  cases hmark

theorem spell_var_ne_int (axis : Axis) (n : Int32) : (var axis).spell ≠ (int n).spell := by
  intro h
  obtain ⟨c, hc⟩ : ∃ c, c ∈ (var axis).spell := by
    cases axis with
    | u => exact ⟨'u', List.mem_singleton.2 rfl⟩
    | v => exact ⟨'v', List.mem_singleton.2 rfl⟩
  obtain rfl | rfl := mem_spell_var hc <;>
  · rw [h] at hc
    obtain hminus | hdigit := mem_spell_int hc
    · cases hminus
    · cases hdigit

/-- **A leaf is known by its word.** -/
theorem same_of_leaf (ha : a.callee? = none) (hb : b.callee? = none) (h : a.spell = b.spell) :
    Same a b := by
  cases a with
  | var axis =>
    cases b with
    | var axis' =>
      have haxis : axis = axis' := by
        revert h
        cases axis <;> cases axis' <;> intro h <;> first | rfl | cases h
      rw [haxis]
      exact .var axis'
    | int n => exact absurd h (spell_var_ne_int axis n)
    | float x =>
      obtain ⟨y, hy⟩ := exists_float_of_leaf ha h.symm
      cases hy
    | _ => cases hb
  | int n =>
    cases b with
    | var axis => exact absurd h.symm (spell_var_ne_int axis n)
    | int n' =>
      rw [spell_int_injective h]
      exact .int n'
    | float x =>
      obtain ⟨y, hy⟩ := exists_float_of_leaf ha h.symm
      cases hy
    | _ => cases hb
  | float x =>
    obtain ⟨y, rfl⟩ := exists_float_of_leaf hb h
    exact same_of_spell_float h
  | _ => cases ha

end

/-! ## Unambiguity -/

section

variable {a b : Expr} {r r' : List Char}

theorem delimits_paren (cs : List Char) : Delimits ('(' :: cs) := by
  rintro c ⟨rfl⟩
  rfl

/-- Texts that agree agree on what is applied, and then on the arguments. -/
theorem callee?_eq (hr : Ends r) (hr' : Ends r') (h : a.spell ++ r = b.spell ++ r') :
    a.callee? = b.callee? := by
  cases ha : a.callee? with
  | none =>
    cases hb : b.callee? with
    | none => rfl
    | some d =>
      rw [spell_of_callee? hb, List.append_assoc] at h
      obtain ⟨-, rfl⟩ := word_split (isWord_of_leaf ha) d.isWord_name hr.delimits
        (delimits_paren _) h
      rcases hr '(' rfl with hc | hc | hc <;> cases hc
  | some c =>
    rw [spell_of_callee? ha, List.append_assoc] at h
    cases hb : b.callee? with
    | none =>
      obtain ⟨-, rfl⟩ := word_split c.isWord_name (isWord_of_leaf hb) (delimits_paren _)
        hr'.delimits h
      rcases hr' '(' rfl with hc | hc | hc <;> cases hc
    | some d =>
      rw [spell_of_callee? hb, List.append_assoc] at h
      obtain ⟨hname, -⟩ := word_split c.isWord_name d.isWord_name (delimits_paren _)
        (delimits_paren _) h
      rw [Callee.name_injective hname]

theorem arguments_eq {c : Callee} (ha : a.callee? = some c) (hb : b.callee? = some c)
    (h : a.spell ++ r = b.spell ++ r') : a.arguments ++ r = b.arguments ++ r' := by
  rw [spell_of_callee? ha, spell_of_callee? hb, List.append_assoc, List.append_assoc] at h
  exact (List.cons.inj (List.append_cancel_left h)).2

theorem same_of_leaf_append (ha : a.callee? = none) (hr : Ends r) (hr' : Ends r')
    (h : a.spell ++ r = b.spell ++ r') : Same a b ∧ r = r' := by
  have hb : b.callee? = none := (callee?_eq hr hr' h).symm.trans ha
  obtain ⟨hspell, hrest⟩ := word_split (isWord_of_leaf ha) (isWord_of_leaf hb) hr.delimits
    hr'.delimits h
  exact ⟨same_of_leaf ha hb hspell, hrest⟩

theorem symbol_split {op op' : BinaryOp} {cs cs' : List Char}
    (h : op.symbol.toList ++ cs = op'.symbol.toList ++ cs') : op = op' ∧ cs = cs' := by
  have hone : ∀ op : BinaryOp, op.symbol.toList.length = 1 := by rintro (_ | _ | _ | _) <;> rfl
  obtain ⟨hsymbol, hrest⟩ := List.append_inj h ((hone op).trans (hone op').symm)
  have hinj : ∀ op op' : BinaryOp, op.symbol.toList = op'.symbol.toList → op = op' := by
    rintro (_ | _ | _ | _) (_ | _ | _ | _) h <;> first | rfl | cases h
  exact ⟨hinj op op' hsymbol, hrest⟩

/-- Whether an expression and the rest are determined by any text that the expression starts, as
    long as an argument can end there. -/
def Splits (a : Expr) : Prop :=
  ∀ (b : Expr) (r r' : List Char), Ends r → Ends r' → a.spell ++ r = b.spell ++ r' →
    Same a b ∧ r = r'

section

variable {cs cs' : List Char}

/-- The last argument. -/
theorem Splits.close (ha : Splits a) (h : a.spell ++ [')'] ++ r = b.spell ++ [')'] ++ r') :
    Same a b ∧ r = r' := by
  rw [List.append_assoc, List.append_assoc] at h
  obtain ⟨hsame, hrest⟩ := ha b _ _ (ends_paren r) (ends_paren r') h
  exact ⟨hsame, (List.cons.inj hrest).2⟩

/-- An argument before a comma. -/
theorem Splits.comma (ha : Splits a)
    (h : a.spell ++ ',' :: ' ' :: cs ++ r = b.spell ++ ',' :: ' ' :: cs' ++ r') :
    Same a b ∧ cs ++ r = cs' ++ r' := by
  rw [List.append_assoc, List.append_assoc] at h
  obtain ⟨hsame, hrest⟩ := ha b _ _ (ends_comma _) (ends_comma _) h
  exact ⟨hsame, (List.cons.inj (List.cons.inj hrest).2).2⟩

/-- An argument before the symbol of an operation. -/
theorem Splits.symbol (ha : Splits a) {op op' : BinaryOp}
    (h : a.spell ++ ' ' :: (op.symbol.toList ++ ' ' :: cs) ++ r
      = b.spell ++ ' ' :: (op'.symbol.toList ++ ' ' :: cs') ++ r') :
    Same a b ∧ op = op' ∧ cs ++ r = cs' ++ r' := by
  rw [List.append_assoc, List.append_assoc] at h
  obtain ⟨hsame, hrest⟩ := ha b _ _ (ends_space _) (ends_space _) h
  have hsymbol : op.symbol.toList ++ ' ' :: cs ++ r = op'.symbol.toList ++ ' ' :: cs' ++ r' :=
    (List.cons.inj hrest).2
  rw [List.append_assoc, List.append_assoc] at hsymbol
  obtain ⟨hop, hcs⟩ := symbol_split hsymbol
  exact ⟨hsame, hop, (List.cons.inj hcs).2⟩

end

/-- **Every text splits in one way.** -/
theorem splits (a : Expr) : Splits a := by
  induction a with
  | var | int | float => exact fun b r r' hr hr' h => same_of_leaf_append rfl hr hr' h
  | toFloat a iha =>
    intro b r r' hr hr' h
    have hcallee := callee?_eq hr hr' h
    cases b with
    | toFloat b =>
      obtain ⟨ha, hrest⟩ := iha.close (arguments_eq rfl rfl h)
      exact ⟨.toFloat ha, hrest⟩
    | _ => cases hcallee
  | toInt a iha =>
    intro b r r' hr hr' h
    have hcallee := callee?_eq hr hr' h
    cases b with
    | toInt b =>
      obtain ⟨ha, hrest⟩ := iha.close (arguments_eq rfl rfl h)
      exact ⟨.toInt ha, hrest⟩
    | _ => cases hcallee
  | unary op a iha =>
    intro b r r' hr hr' h
    have hcallee := callee?_eq hr hr' h
    cases b with
    | unary op' b =>
      obtain rfl : op = op' := Callee.function.inj (Option.some.inj hcallee)
      obtain ⟨ha, hrest⟩ := iha.close (arguments_eq rfl rfl h)
      exact ⟨.unary op ha, hrest⟩
    | _ => cases hcallee
  | binary op a a' iha iha' =>
    intro b r r' hr hr' h
    have hcallee := callee?_eq hr hr' h
    cases b with
    | binary op' b b' =>
      obtain ⟨ha, rfl, hright⟩ := iha.symbol (arguments_eq rfl rfl h)
      obtain ⟨ha', hrest⟩ := iha'.close hright
      exact ⟨.binary op ha ha', hrest⟩
    | _ => cases hcallee
  | vec2 x y ihx ihy =>
    intro b r r' hr hr' h
    have hcallee := callee?_eq hr hr' h
    cases b with
    | vec2 x' y' =>
      obtain ⟨hx, h⟩ := ihx.comma (arguments_eq rfl rfl h)
      obtain ⟨hy, hrest⟩ := ihy.close h
      exact ⟨.vec2 hx hy, hrest⟩
    | _ => cases hcallee
  | vec3 x y z ihx ihy ihz =>
    intro b r r' hr hr' h
    have hcallee := callee?_eq hr hr' h
    cases b with
    | vec3 x' y' z' =>
      obtain ⟨hx, h⟩ := ihx.comma (arguments_eq rfl rfl h)
      obtain ⟨hy, h⟩ := ihy.comma h
      obtain ⟨hz, hrest⟩ := ihz.close h
      exact ⟨.vec3 hx hy hz, hrest⟩
    | _ => cases hcallee
  | vec4 x y z w ihx ihy ihz ihw =>
    intro b r r' hr hr' h
    have hcallee := callee?_eq hr hr' h
    cases b with
    | vec4 x' y' z' w' =>
      obtain ⟨hx, h⟩ := ihx.comma (arguments_eq rfl rfl h)
      obtain ⟨hy, h⟩ := ihy.comma h
      obtain ⟨hz, h⟩ := ihz.comma h
      obtain ⟨hw, hrest⟩ := ihw.close h
      exact ⟨.vec4 hx hy hz hw, hrest⟩
    | _ => cases hcallee

end

/-! ## Equal texts -/

section

variable {a b : Expr}

theorem spell_eq_of_arguments {c : Callee} (ha : a.callee? = some c) (hb : b.callee? = some c)
    (h : a.arguments = b.arguments) : a.spell = b.spell := by
  rw [spell_of_callee? ha, spell_of_callee? hb, h]

theorem Same.spell_eq (h : Same a b) : a.spell = b.spell := by
  induction h with
  | var | int => rfl
  | @float x y h =>
    rcases h with hbits | ⟨hx, hy⟩
    · rw [Binary.eq_of_toBits_eq hbits]
    · exact (spell32_of_isNaN .expression hx).trans (spell32_of_isNaN .expression hy).symm
  | toFloat ha iha => exact spell_eq_of_arguments rfl rfl (by simp only [arguments, iha])
  | toInt ha iha => exact spell_eq_of_arguments rfl rfl (by simp only [arguments, iha])
  | unary op ha iha => exact spell_eq_of_arguments rfl rfl (by simp only [arguments, iha])
  | binary op ha ha' iha iha' =>
    exact spell_eq_of_arguments rfl rfl (by simp only [arguments, iha, iha'])
  | vec2 hx hy ihx ihy => exact spell_eq_of_arguments rfl rfl (by simp only [arguments, ihx, ihy])
  | vec3 hx hy hz ihx ihy ihz =>
    exact spell_eq_of_arguments rfl rfl (by simp only [arguments, ihx, ihy, ihz])
  | vec4 hx hy hz hw ihx ihy ihz ihw =>
    exact spell_eq_of_arguments rfl rfl (by simp only [arguments, ihx, ihy, ihz, ihw])

/-- Without NaNs, what is the same is equal. -/
theorem Same.beq (h : Same a b) (hnan : ∀ x ∈ a.literals, x.isNaN = false) :
    (a == b) = true := by
  show a.beq b = true
  induction h with
  | var | int => exact decide_eq_true rfl
  | @float x y h =>
    have hx := hnan x (List.mem_singleton.2 rfl)
    rcases h with hbits | ⟨hx', hy⟩
    · rw [← Binary.eq_of_toBits_eq hbits]
      exact Binary.beq_self hx
    · rw [hx] at hx'
      cases hx'
  | toFloat ha iha => exact iha hnan
  | toInt ha iha => exact iha hnan
  | unary op ha iha => exact Bool.and_eq_true_iff.2 ⟨decide_eq_true rfl, iha hnan⟩
  | binary op ha ha' iha iha' =>
    obtain ⟨hleft, hright⟩ := List.forall_mem_append.1 hnan
    exact Bool.and_eq_true_iff.2 ⟨decide_eq_true rfl,
      Bool.and_eq_true_iff.2 ⟨iha hleft, iha' hright⟩⟩
  | vec2 hx hy ihx ihy =>
    obtain ⟨hnanx, hnany⟩ := List.forall_mem_append.1 hnan
    exact Bool.and_eq_true_iff.2 ⟨ihx hnanx, ihy hnany⟩
  | vec3 hx hy hz ihx ihy ihz =>
    obtain ⟨hnanx, hnan⟩ := List.forall_mem_append.1 hnan
    obtain ⟨hnany, hnanz⟩ := List.forall_mem_append.1 hnan
    exact Bool.and_eq_true_iff.2 ⟨ihx hnanx, Bool.and_eq_true_iff.2 ⟨ihy hnany, ihz hnanz⟩⟩
  | vec4 hx hy hz hw ihx ihy ihz ihw =>
    obtain ⟨hnanx, hnan⟩ := List.forall_mem_append.1 hnan
    obtain ⟨hnany, hnan⟩ := List.forall_mem_append.1 hnan
    obtain ⟨hnanz, hnanw⟩ := List.forall_mem_append.1 hnan
    exact Bool.and_eq_true_iff.2 ⟨ihx hnanx, Bool.and_eq_true_iff.2 ⟨ihy hnany,
      Bool.and_eq_true_iff.2 ⟨ihz hnanz, ihw hnanw⟩⟩⟩

theorem text_eq_iff_spell_eq : a.text = b.text ↔ a.spell = b.spell := String.ofList_inj

theorem text_eq_iff : a.text = b.text ↔ a.Same b := by
  rw [text_eq_iff_spell_eq]
  refine ⟨fun h => ?_, Same.spell_eq⟩
  have hnil : a.spell ++ [] = b.spell ++ [] := by rw [h]
  exact (splits a b [] [] ends_nil ends_nil hnil).1

end

/-- **The text of an expression is unambiguous.** Two expressions have the same text exactly when
    they have the same shape, coordinates, operations and whole numbers, and their numbers have the
    same bits or are both NaNs. So expressions with the same text are equal, unless a NaN is among
    their numbers. -/
theorem text_unambiguous (a b : Expr) :
    (a.text = b.text ↔ a.Same b) ∧
      ((∀ x ∈ a.literals, x.isNaN = false) → a.text = b.text → (a == b) = true) :=
  ⟨text_eq_iff, fun hnan htext => (text_eq_iff.1 htext).beq hnan⟩

end Expr

end Relief
