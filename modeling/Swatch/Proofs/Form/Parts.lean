import Swatch.Form.Components
import Swatch.Proofs.Text.Parts
/-!
The parts of a colour function, said without their readers.

* `IsInteger`, `IsDecimal`, `IsPercentage`: how numbers are written.
* `IsRun`: a run of characters of a class.
* `IsAlphaPart`: an alpha behind a mark, with blanks around the mark, or nothing.

Each reader of a part finds just what is described here, and what it leaves over does not go on with
more of the same: `integer?_eq_some_iff`, `decimal?_eq_some_iff`, `percentage?_append` and
`isPercentage_of_percentage?`, `skipRun?_eq_some_iff`, `alphaAndClose?_eq_some_iff`.
-/

namespace Swatch.Parts

/-! ### Classes of characters -/

/-- The ASCII digits by their numbers. -/
lemma isDigit_iff {c : Char} : c.isDigit = true ↔ 48 ≤ c.toNat ∧ c.toNat ≤ 57 := by
  simp only [Char.isDigit, ge_iff_le, Bool.and_eq_true, decide_eq_true_eq, UInt32.le_iff_toNat_le]
  rfl

/-- The blanks by their numbers. -/
lemma isBlank_iff {c : Char} : isBlank c = true ↔
    9 ≤ c.toNat ∧ c.toNat ≤ 13 ∨ 28 ≤ c.toNat ∧ c.toNat ≤ 32 ∨ c.toNat = 133 ∨ c.toNat = 160
      ∨ c.toNat = 5760 ∨ 8192 ≤ c.toNat ∧ c.toNat ≤ 8202 ∨ c.toNat = 8232 ∨ c.toNat = 8233
      ∨ c.toNat = 8239 ∨ c.toNat = 8287 ∨ c.toNat = 12288 := by
  simp [isBlank, or_assoc]

/-- A separator ends a number. -/
lemma isDecimalChar_of_isSeparator {c : Char} (h : isSeparator c = true) :
    isDecimalChar c = false := by
  have hdot : '.'.toNat = 46 := rfl
  have hcomma : ','.toNat = 44 := rfl
  rw [isSeparator, Bool.or_eq_true, decide_eq_true_eq, ← Char.toNat_inj, isBlank_iff] at h
  rw [isDecimalChar, Bool.or_eq_false_iff, decide_eq_false_iff_not, ← Char.toNat_inj,
    Bool.eq_false_iff, ne_eq, isDigit_iff]
  omega

lemma isDecimalChar_of_isDigit {c : Char} (h : c.isDigit = true) : isDecimalChar c = true := by
  simp [isDecimalChar, h]

/-- A blank separates numbers. -/
lemma isSeparator_of_isBlank {c : Char} (h : isBlank c = true) : isSeparator c = true := by
  simp [isSeparator, h]

/-- A number ends a run of separators. -/
lemma isSeparator_of_isDecimalChar {c : Char} (h : isDecimalChar c = true) :
    isSeparator c = false := by
  by_contra hne
  rw [Bool.not_eq_false] at hne
  rw [isDecimalChar_of_isSeparator hne] at h
  exact absurd h (by simp)

lemma isDigit_of_isSeparator {c : Char} (h : isSeparator c = true) : c.isDigit = false := by
  by_contra hne
  rw [Bool.not_eq_false] at hne
  have := isDecimalChar_of_isDigit hne
  rw [isDecimalChar_of_isSeparator h] at this
  exact absurd this (by simp)

lemma isBlank_of_isDecimalChar {c : Char} (h : isDecimalChar c = true) : isBlank c = false := by
  by_contra hne
  rw [Bool.not_eq_false] at hne
  have := isSeparator_of_isBlank hne
  rw [isSeparator_of_isDecimalChar h] at this
  exact absurd this (by simp)

/-- A character of a class is not one outside of it. -/
lemma decide_eq_false_of_class {q : Char → Bool} {d : Char} (hd : q d = false) (c : Char)
    (hc : q c = true) : decide (c = d) = false := by
  rw [decide_eq_false_iff_not]
  rintro rfl
  rw [hd] at hc
  exact absurd hc (by simp)

/-! ### How the parts are written -/

/-- A run of characters of a class, of which there is at least one. -/
def IsRun (p : Char → Bool) (s : Text) : Prop := s ≠ [] ∧ ∀ c ∈ s, p c

/-- Blanks, or nothing. -/
def IsBlanks (s : Text) : Prop := ∀ c ∈ s, isBlank c

/-- Digits with a minus sign that may stand in front. -/
inductive IsInteger : Text → Prop where
  | plain {digits : Text} (h : IsRun Char.isDigit digits) : IsInteger digits
  | negative {digits : Text} (h : IsRun Char.isDigit digits) : IsInteger ('-' :: digits)

/-- Digits and points. -/
def IsDecimal (s : Text) : Prop := IsRun isDecimalChar s

/-- Digits and points with a percent sign that may follow. -/
inductive IsPercentage : Text → Prop where
  | plain {digits : Text} (h : IsDecimal digits) : IsPercentage digits
  | percent {digits : Text} (h : IsDecimal digits) : IsPercentage (digits ++ ['%'])

/-- An alpha behind a mark, with blanks around the mark, or nothing. -/
inductive IsAlphaPart (isMark : Char → Bool) : Option Text → Text → Prop where
  | none : IsAlphaPart isMark none []
  | some {before after alpha : Text} {mark : Char} (hbefore : IsBlanks before)
      (hmark : isMark mark) (hafter : IsBlanks after) (halpha : IsPercentage alpha) :
      IsAlphaPart isMark (some alpha) (before ++ mark :: (after ++ alpha))

/-! ### What comes first in a part -/

/-- A run begins with a character of its class. -/
lemma IsRun.stops {p q : Char → Bool} {s : Text} (hs : IsRun p s)
    (hpq : ∀ c, p c = true → q c = false) (t : Text) : Text.Stops q (s ++ t) := by
  obtain ⟨c, s, rfl⟩ := List.exists_cons_of_ne_nil hs.1
  exact Text.stops_cons.mpr (hpq c (hs.2 c (by simp)))

/-- Behind blanks, what does not come first is what neither is a blank nor comes first there. -/
lemma IsBlanks.stops {q : Char → Bool} {s t : Text} (hs : IsBlanks s)
    (hq : ∀ c, isBlank c = true → q c = false) (ht : Text.Stops q t) : Text.Stops q (s ++ t) := by
  cases s with
  | nil => exact ht
  | cons c s => exact Text.stops_cons.mpr (hq c (hs c (by simp)))

/-- An integer begins with a minus sign or a digit. -/
lemma IsInteger.stops {q : Char → Bool} {s : Text} (hs : IsInteger s) (hminus : q '-' = false)
    (hdigit : ∀ c, c.isDigit = true → q c = false) (t : Text) : Text.Stops q (s ++ t) := by
  cases hs with
  | plain h => exact h.stops hdigit t
  | negative h => exact Text.stops_cons.mpr hminus

/-- A percentage begins with a digit or a point. -/
lemma IsPercentage.stops {q : Char → Bool} {s : Text} (hs : IsPercentage s)
    (hq : ∀ c, isDecimalChar c = true → q c = false) (t : Text) : Text.Stops q (s ++ t) := by
  cases hs with
  | plain h => exact h.stops hq t
  | percent h =>
      rw [List.append_assoc]
      exact h.stops hq _

/-! ### What is not in a part -/

/-- A run holds no character of another class. -/
lemma IsRun.notMem {p : Char → Bool} {s : Text} {c : Char} (hs : IsRun p s) (hc : p c = false) :
    c ∉ s := by
  intro hmem
  have := hs.2 c hmem
  rw [hc] at this
  exact absurd this (by simp)

lemma IsBlanks.notMem {s : Text} {c : Char} (hs : IsBlanks s) (hc : isBlank c = false) :
    c ∉ s := by
  intro hmem
  have := hs c hmem
  rw [hc] at this
  exact absurd this (by simp)

/-- An integer holds digits and a minus sign only. -/
lemma IsInteger.notMem {s : Text} {c : Char} (hs : IsInteger s) (hc : c.isDigit = false)
    (hminus : c ≠ '-') : c ∉ s := by
  cases hs with
  | plain h => exact h.notMem hc
  | negative h => exact List.not_mem_cons_of_ne_of_not_mem hminus (h.notMem hc)

/-- A percentage holds digits, points and a percent sign only. -/
lemma IsPercentage.notMem {s : Text} {c : Char} (hs : IsPercentage s)
    (hc : isDecimalChar c = false) (hpercent : c ≠ '%') : c ∉ s := by
  cases hs with
  | plain h => exact h.notMem hc
  | percent h => simp [h.notMem hc, hpercent]

/-- An alpha with its mark holds blanks, the mark and a percentage only. -/
lemma IsAlphaPart.notMem {isMark : Char → Bool} {alpha : Option Text} {s : Text} {c : Char}
    (hs : IsAlphaPart isMark alpha s) (hblank : isBlank c = false) (hmark : isMark c = false)
    (hc : isDecimalChar c = false) (hpercent : c ≠ '%') : c ∉ s := by
  cases hs with
  | none => simp
  | @some before after found mark hbefore hm hafter hfound =>
      have hne : c ≠ mark := by
        rintro rfl
        rw [hmark] at hm
        exact absurd hm (by simp)
      simp [hbefore.notMem hblank, hne, hafter.notMem hblank, hfound.notMem hc hpercent]

/-! ### What the readers find -/

/-- All blanks are skipped, and nothing else. -/
lemma skipBlanks_append {s t : Text} (hs : IsBlanks s) (ht : Text.Stops isBlank t) :
    skipBlanks (s ++ t) = t := by
  have h : Text.span isBlank (s ++ t) = (s, t) := Text.span_eq_iff.mpr ⟨rfl, hs, ht⟩
  exact congrArg Prod.snd h

/-- What is skipped are blanks, as many as there are. -/
lemma exists_skipBlanks (s : Text) :
    ∃ blanks, IsBlanks blanks ∧ s = blanks ++ skipBlanks s ∧ Text.Stops isBlank (skipBlanks s) := by
  obtain ⟨h, hblanks, hstop⟩ := Text.span_eq_iff.mp (rfl : Text.span isBlank s = _)
  exact ⟨_, hblanks, h, hstop⟩

/-- A run is skipped as a whole. -/
lemma skipRun?_eq_some_iff {p : Char → Bool} {s rest : Text} :
    skipRun? p s = some rest ↔ ∃ run, s = run ++ rest ∧ IsRun p run ∧ Text.Stops p rest := by
  rw [skipRun?, Option.map_eq_some_iff]
  constructor
  · rintro ⟨⟨run, rest⟩, h, rfl⟩
    obtain ⟨rfl, hne, hrun, hstop⟩ := Text.run?_eq_some_iff.mp h
    exact ⟨run, rfl, ⟨hne, hrun⟩, hstop⟩
  · rintro ⟨run, rfl, hrun, hstop⟩
    exact ⟨(run, rest), Text.run?_eq_some_iff.mpr ⟨rfl, hrun.1, hrun.2, hstop⟩, rfl⟩

/-- The reader of a number finds all the digits and points there are. -/
lemma decimal?_eq_some_iff {s digits rest : Text} :
    decimal? s = some (digits, rest) ↔
      s = digits ++ rest ∧ IsDecimal digits ∧ Text.Stops isDecimalChar rest := by
  rw [decimal?, Text.run?_eq_some_iff, IsDecimal, IsRun, and_assoc]

/-- The reader of an integer finds all the digits there are, behind a sign or not. -/
lemma integer?_eq_some_iff {s found rest : Text} :
    integer? s = some (found, rest) ↔
      s = found ++ rest ∧ IsInteger found ∧ Text.Stops Char.isDigit rest := by
  constructor
  · intro h
    unfold integer? at h
    split at h
    · next s =>
      obtain ⟨⟨digits, rest⟩, hrun, heq⟩ := Option.map_eq_some_iff.mp h
      obtain ⟨rfl, rfl⟩ := Prod.mk.inj heq
      obtain ⟨rfl, hne, hdigits, hstop⟩ := Text.run?_eq_some_iff.mp hrun
      exact ⟨rfl, .negative ⟨hne, hdigits⟩, hstop⟩
    · obtain ⟨rfl, hne, hdigits, hstop⟩ := Text.run?_eq_some_iff.mp h
      exact ⟨rfl, .plain ⟨hne, hdigits⟩, hstop⟩
  · rintro ⟨rfl, hfound, hstop⟩
    cases hfound with
    | plain h =>
        -- digits do not begin with a minus sign
        have hrun : Text.run? Char.isDigit (found ++ rest) = some (found, rest) :=
          Text.run?_eq_some_iff.mpr ⟨rfl, h.1, h.2, hstop⟩
        have hminus : Text.Stops (· = '-') (found ++ rest) :=
          h.stops (decide_eq_false_of_class (by decide)) rest
        unfold integer?
        split
        · next t ht =>
          rw [ht] at hminus
          simp at hminus
        · exact hrun
    | @negative digits h =>
        have hrun : Text.run? Char.isDigit (digits ++ rest) = some (digits, rest) :=
          Text.run?_eq_some_iff.mpr ⟨rfl, h.1, h.2, hstop⟩
        simp [integer?, hrun]

/-- What ends a number with a percent sign that may follow. -/
def endsPercentage (c : Char) : Bool := isDecimalChar c || c = '%'

/-- A percentage is read as a whole, if what follows does not go on with it. -/
lemma percentage?_append {found rest : Text} (hfound : IsPercentage found)
    (hstop : Text.Stops endsPercentage rest) :
    percentage? (found ++ rest) = some (found, rest) := by
  cases hfound with
  | plain h =>
      have hdec : decimal? (found ++ rest) = some (found, rest) :=
        decimal?_eq_some_iff.mpr ⟨rfl, h, fun c hc => by
          have := hstop c hc
          simp_all [endsPercentage]⟩
      rw [percentage?, hdec]
      cases rest with
      | nil => rfl
      | cons c rest =>
          have hc : c ≠ '%' := by
            rintro rfl
            simp [endsPercentage] at hstop
          simp [hc]
  | @percent digits h =>
      have hdec : decimal? (digits ++ '%' :: rest) = some (digits, '%' :: rest) :=
        decimal?_eq_some_iff.mpr ⟨rfl, h, Text.stops_cons.mpr (by decide)⟩
      rw [percentage?, List.append_assoc, List.singleton_append, hdec]
      rfl

/-- What is read as a percentage is one. -/
lemma isPercentage_of_percentage? {s found rest : Text}
    (h : percentage? s = some (found, rest)) : s = found ++ rest ∧ IsPercentage found := by
  obtain ⟨⟨digits, s⟩, hdec, heq⟩ := Option.map_eq_some_iff.mp h
  obtain ⟨rfl, hdigits, -⟩ := decimal?_eq_some_iff.mp hdec
  simp only at heq
  split at heq
  · obtain ⟨rfl, rfl⟩ := Prod.mk.inj heq
    exact ⟨by simp, .percent hdigits⟩
  · obtain ⟨rfl, rfl⟩ := Prod.mk.inj heq
    exact ⟨rfl, .plain hdigits⟩

/-- A function is opened by its word, or by its word and an `a` if it has two names. -/
lemma open?_eq_some_iff {word s rest : Text} {twoNames : Bool} :
    open? word twoNames s = some rest ↔ ∃ name,
      (name = word ∨ twoNames ∧ name = word ++ ['a']) ∧ s = name ++ '(' :: rest := by
  rw [open?, Option.bind_eq_bind, Option.bind_eq_some_iff]
  simp only [Text.dropWord?_eq_some_iff, List.singleton_append]
  cases twoNames with
  | false => simp
  | true =>
      simp only [if_true, Text.dropOptional_eq]
      constructor
      · rintro ⟨t, rfl, ht⟩
        obtain ⟨found, hfound, ht'⟩ := Text.exists_dropOptionalWord ['a'] t
        rw [ht] at ht'
        rcases hfound with rfl | rfl
        · exact ⟨word, Or.inl rfl, by rw [ht']; rfl⟩
        · exact ⟨word ++ ['a'], Or.inr ⟨trivial, rfl⟩, by rw [ht']; simp⟩
      · have hopen : Text.Stops (· = 'a') ('(' :: rest) := by simp
        rintro ⟨name, rfl | ⟨-, rfl⟩, rfl⟩
        · exact ⟨_, rfl, Text.dropOptionalWord_append (o := []) (Or.inl rfl) hopen⟩
        · exact ⟨_, List.append_assoc _ _ _,
            Text.dropOptionalWord_append (o := ['a']) (Or.inr rfl) hopen⟩

/-! ### The end of a function -/

lemma IsAlphaPart.stops {isMark q : Char → Bool} {alpha : Option Text} {part : Text}
    (h : IsAlphaPart isMark alpha part) (hblank : ∀ c, isBlank c = true → q c = false)
    (hmark : ∀ c, isMark c = true → q c = false) {t : Text} (ht : Text.Stops q t) :
    Text.Stops q (part ++ t) := by
  cases h with
  | none => exact ht
  | some hbefore hm hafter halpha =>
      rw [List.append_assoc]
      exact hbefore.stops hblank (Text.stops_cons.mpr (hmark _ hm))

/-- A mark is neither a blank nor the end. -/
lemma alphaAndClose?_eq_some_iff {isMark : Char → Bool} {s rest : Text} {alpha : Option Text}
    (hblank : ∀ c, isMark c = true → isBlank c = false) (hclose : isMark ')' = false) :
    alphaAndClose? isMark s = some (alpha, rest) ↔
      ∃ part, IsAlphaPart isMark alpha part ∧ s = part ++ ')' :: rest := by
  constructor
  · intro h
    obtain ⟨before, hbefore, hs, -⟩ := exists_skipBlanks s
    unfold alphaAndClose? at h
    split at h
    · next mark r hr =>
      split at h
      · next hmark =>
        obtain ⟨after, hafter, hr', -⟩ := exists_skipBlanks r
        simp only [Option.bind_eq_bind, Option.bind_eq_some_iff, Option.pure_def,
          Option.some.injEq, Prod.exists] at h
        obtain ⟨found, t, hfound, rest', hrest, heq⟩ := h
        obtain ⟨rfl, rfl⟩ := Prod.mk.inj heq
        obtain ⟨ht, hpercentage⟩ := isPercentage_of_percentage? hfound
        rw [Text.dropWord?_eq_some_iff] at hrest
        refine ⟨_, .some hbefore hmark hafter hpercentage, ?_⟩
        rw [hs, hr, hr', ht, hrest]
        simp
      · obtain ⟨rest', hrest, heq⟩ := Option.map_eq_some_iff.mp h
        obtain ⟨rfl, rfl⟩ := Prod.mk.inj heq
        rw [Text.dropWord?_eq_some_iff] at hrest
        exact ⟨[], .none, hrest⟩
    · exact absurd h (by simp)
  · rintro ⟨part, hpart, rfl⟩
    have hstop : Text.Stops endsPercentage (')' :: rest) := Text.stops_cons.mpr (by decide)
    cases hpart with
    | none =>
        have hskip : skipBlanks (')' :: rest) = ')' :: rest :=
          skipBlanks_append (s := []) (by simp [IsBlanks]) (Text.stops_cons.mpr (by decide))
        simp only [List.nil_append, alphaAndClose?, hskip, hclose]
        simp [Text.dropWord?, List.isPrefixOf?]
    | @some before after found mark hbefore hmark hafter halpha =>
        have hskip : skipBlanks (before ++ mark :: (after ++ (found ++ ')' :: rest)))
            = mark :: (after ++ (found ++ ')' :: rest)) :=
          skipBlanks_append hbefore (Text.stops_cons.mpr (hblank _ hmark))
        have hskip' : skipBlanks (after ++ (found ++ ')' :: rest)) = found ++ ')' :: rest :=
          skipBlanks_append hafter (halpha.stops (fun _ => isBlank_of_isDecimalChar) _)
        simp only [List.append_assoc, List.cons_append, alphaAndClose?, hskip, hmark, hskip',
          percentage?_append halpha hstop]
        simp [Text.dropWord?, List.isPrefixOf?]

end Swatch.Parts
