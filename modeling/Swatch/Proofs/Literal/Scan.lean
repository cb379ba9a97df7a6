import Swatch.Proofs.Literal.Grammar
/-!
The tokens of a text are the literals that a search from left to right meets.

A list of tokens is the right one if each of its tokens is a literal where it stands, no two
overlap, and no literal of the text begins outside of them.  That decides the list: of two tokens
that could come first, the earlier one begins outside of every token of a list that starts with the
later.

* `Literal.scanInduction`: induction along the search, over the three things it can meet.
* `StandsAt`: a literal stands at an offset.
* `IsScanFrom`: what the tokens behind a scanned beginning have to be.  Its three rules
  (`isScanFrom_nil`, `isScanFrom_append`, `isScanFrom_cons`) follow the search step by step.
* `IsScan`: what the tokens of a text have to be.
* `isScan_iff_eq_scan`: a list of tokens is right just if it is the result of the scan.
-/

namespace Swatch

/-! ### Induction along the search -/

/-- A property of texts holds if it holds of the empty text and is carried over a literal, and over
a character at which no literal begins. -/
@[elab_as_elim]
theorem Literal.scanInduction {P : Text → Prop} (nil : P [])
    (literal : ∀ (l : Literal) (rest : Text), IsLiteral rest l.form l.text → P rest →
      P (l.text ++ rest))
    (skip : ∀ (c : Char) (s : Text), Literal.atHead? (c :: s) = none → P s → P (c :: s))
    (s : Text) : P s := by
  induction hn : s.length using Nat.strong_induction_on generalizing s with
  | _ n ih =>
      cases s with
      | nil => exact nil
      | cons c s =>
          cases h : Literal.atHead? (c :: s) with
          | none => exact skip c s h (ih s.length (by rw [← hn]; simp) s rfl)
          | some l =>
              obtain ⟨rest, hs, hl⟩ := Literal.atHead?_eq_some_iff.mp h
              have hpos := List.length_pos_of_ne_nil hl.ne_nil
              rw [hs, List.length_append] at hn
              rw [hs]
              exact literal l rest hl (ih rest.length (by omega) rest rfl)

namespace Token

@[simp] lemma scanFrom_nil (start : Nat) : scanFrom start [] = [] := by rw [scanFrom]

lemma scanFrom_append {rest : Text} {l : Literal} (h : IsLiteral rest l.form l.text)
    (start : Nat) :
    scanFrom start (l.text ++ rest) = ⟨l, start⟩ :: scanFrom (start + l.text.length) rest := by
  obtain ⟨form, text⟩ := l
  obtain ⟨c, text, rfl⟩ := List.exists_cons_of_ne_nil h.ne_nil
  have hdrop : (text ++ rest).drop ((c :: text).length - 1) = rest := by simp
  rw [List.cons_append, scanFrom, ← List.cons_append, Literal.atHead?_append h]
  simp only [hdrop]

lemma scanFrom_cons {c : Char} {s : Text} (h : Literal.atHead? (c :: s) = none) (start : Nat) :
    scanFrom start (c :: s) = scanFrom (start + 1) s := by
  rw [scanFrom]
  simp [h]

/-- A token is a literal in front of what follows it. -/
lemma isLiteral_of_mem_scanFrom {start : Nat} {s : Text} {t : Token} (ht : t ∈ scanFrom start s) :
    ∃ rest, IsLiteral rest t.form t.text := by
  induction s using Literal.scanInduction generalizing start with
  | nil => exact absurd ht (by simp)
  | literal l rest hl ih =>
      rw [scanFrom_append hl, List.mem_cons] at ht
      rcases ht with rfl | ht
      · exact ⟨rest, hl⟩
      · exact ih ht
  | skip c s hnone ih =>
      rw [scanFrom_cons hnone] at ht
      exact ih ht

end Token

/-! ### Where literals stand -/

/-- A literal of a form stands in a text at an offset. -/
def StandsAt (s : Text) (start : Nat) (form : Form) (text : Text) : Prop :=
  ∃ front rest, s = front ++ (text ++ rest) ∧ front.length = start ∧ IsLiteral rest form text

lemma StandsAt.stop_le {s text : Text} {start : Nat} {form : Form}
    (h : StandsAt s start form text) : start < start + text.length ∧
      start + text.length ≤ s.length := by
  obtain ⟨front, rest, rfl, rfl, hl⟩ := h
  have := List.length_pos_of_ne_nil hl.ne_nil
  simp only [List.length_append]
  omega

lemma StandsAt.text_eq {s text : Text} {start : Nat} {form : Form}
    (h : StandsAt s start form text) : text = (s.drop start).take text.length := by
  obtain ⟨front, rest, rfl, rfl, -⟩ := h
  simp

/-- The literal behind a beginning is the one with which the rest begins. -/
lemma standsAt_length_iff {front s text : Text} {form : Form} :
    StandsAt (front ++ s) front.length form text ↔ Literal.atHead? s = some ⟨form, text⟩ := by
  rw [Literal.atHead?_eq_some_iff]
  constructor
  · rintro ⟨front', rest, heq, hlen, h⟩
    obtain ⟨rfl, rfl⟩ := List.append_inj heq hlen.symm
    exact ⟨rest, rfl, h⟩
  · rintro ⟨rest, rfl, h⟩
    exact ⟨front, rest, rfl, rfl, h⟩

/-- What the tokens behind a beginning of a text have to be: literals that stand there, from left to
right without overlap, such that every literal behind the beginning begins inside one of them. -/
structure IsScanFrom (front s : Text) (tokens : List Token) : Prop where
  standsAt : ∀ t ∈ tokens, front.length ≤ t.start ∧ StandsAt (front ++ s) t.start t.form t.text
  ordered : tokens.Pairwise fun t u => t.stop ≤ u.start
  covered : ∀ start form text, front.length ≤ start → StandsAt (front ++ s) start form text →
    ∃ t ∈ tokens, t.start ≤ start ∧ start < t.stop

namespace IsScanFrom

variable {front s : Text} {tokens : List Token}

lemma start_lt_stop (h : IsScanFrom front s tokens) {t : Token} (ht : t ∈ tokens) :
    t.start < t.stop :=
  (h.standsAt t ht).2.stop_le.1

end IsScanFrom

lemma isScanFrom_nil {front : Text} {tokens : List Token} :
    IsScanFrom front [] tokens ↔ tokens = [] := by
  -- nothing stands behind the whole text
  have hnone {start : Nat} {form : Form} {text : Text} (hs : front.length ≤ start) :
      ¬ StandsAt (front ++ []) start form text := by
    intro h
    have := h.stop_le
    rw [List.append_nil] at this
    omega
  constructor
  · intro h
    refine List.eq_nil_iff_forall_not_mem.mpr fun t ht => ?_
    obtain ⟨hle, hstands⟩ := h.standsAt t ht
    exact hnone hle hstands
  · rintro rfl
    exact ⟨by simp, List.Pairwise.nil, fun start form text hs h => absurd h (hnone hs)⟩

/-- Where no literal begins, the scanned beginning grows by one character. -/
lemma isScanFrom_cons {front s : Text} {c : Char} {tokens : List Token}
    (hnone : Literal.atHead? (c :: s) = none) :
    IsScanFrom front (c :: s) tokens ↔ IsScanFrom (front ++ [c]) s tokens := by
  have htext : front ++ c :: s = front ++ [c] ++ s := by simp
  have hlen : (front ++ [c]).length = front.length + 1 := by simp
  have hstart {start : Nat} {form : Form} {text : Text}
      (h : StandsAt (front ++ c :: s) start form text) : start ≠ front.length := by
    rintro rfl
    rw [standsAt_length_iff, hnone] at h
    exact absurd h (by simp)
  constructor
  · intro h
    refine ⟨fun t ht => ?_, h.ordered, fun start form text hs hst => ?_⟩
    · obtain ⟨hle, hst⟩ := h.standsAt t ht
      have := hstart hst
      rw [hlen, ← htext]
      exact ⟨by omega, hst⟩
    · rw [hlen] at hs
      rw [← htext] at hst
      exact h.covered start form text (by omega) hst
  · intro h
    refine ⟨fun t ht => ?_, h.ordered, fun start form text hs hst => ?_⟩
    · obtain ⟨hle, hst⟩ := h.standsAt t ht
      rw [hlen] at hle
      rw [htext]
      exact ⟨by omega, hst⟩
    · have := hstart hst
      rw [htext] at hst
      exact h.covered start form text (by omega) hst

section Literal

variable {front rest : Text} {l : Literal} {tokens tail : List Token}

/-- Where a literal begins, it is the first token. -/
lemma IsScanFrom.exists_tail (hl : IsLiteral rest l.form l.text)
    (h : IsScanFrom front (l.text ++ rest) tokens) :
    ∃ tail, tokens = ⟨l, front.length⟩ :: tail := by
  have hstands : StandsAt (front ++ (l.text ++ rest)) front.length l.form l.text :=
    standsAt_length_iff.mpr (Literal.atHead?_append hl)
  obtain ⟨t, ht, hle, hlt⟩ := h.covered _ _ _ le_rfl hstands
  -- the token that covers the start of the literal stands there
  obtain ⟨hge, hst⟩ := h.standsAt t ht
  have hstart : t.start = front.length := by omega
  have hfound : t = ⟨l, front.length⟩ := by
    have hhead := hst
    rw [hstart, standsAt_length_iff, Literal.atHead?_append hl, Option.some.injEq] at hhead
    rw [← hstart]
    exact (congrArg (Token.mk · t.start) hhead).symm
  -- and no other token comes before it
  cases tokens with
  | nil => exact absurd ht (by simp)
  | cons u tail =>
      refine ⟨tail, ?_⟩
      rcases List.mem_cons.mp ht with rfl | hmem
      · rw [hfound]
      · have h1 := (List.pairwise_cons.mp h.ordered).1 t hmem
        have h2 := h.start_lt_stop (t := u) (by simp)
        have h3 := (h.standsAt u (by simp)).1
        omega

/-- Behind a literal the scanned beginning has grown by it. -/
lemma isScanFrom_token_cons (hl : IsLiteral rest l.form l.text) :
    IsScanFrom front (l.text ++ rest) (⟨l, front.length⟩ :: tail) ↔
      IsScanFrom (front ++ l.text) rest tail := by
  have htext : front ++ (l.text ++ rest) = front ++ l.text ++ rest := by simp
  have hlen : (front ++ l.text).length = front.length + l.text.length := by simp
  constructor
  · intro h
    have hord := List.pairwise_cons.mp h.ordered
    refine ⟨fun t ht => ?_, hord.2, fun start form text hs hst => ?_⟩
    · have h1 : front.length + l.text.length ≤ t.start := hord.1 t ht
      rw [hlen, ← htext]
      exact ⟨h1, (h.standsAt t (by simp [ht])).2⟩
    · rw [hlen] at hs
      rw [← htext] at hst
      obtain ⟨t, ht, h1, h2⟩ := h.covered start form text (by omega) hst
      rcases List.mem_cons.mp ht with rfl | ht
      · have h3 : start < front.length + l.text.length := h2
        omega
      · exact ⟨t, ht, h1, h2⟩
  · intro h
    have hstands : StandsAt (front ++ (l.text ++ rest)) front.length l.form l.text :=
      standsAt_length_iff.mpr (Literal.atHead?_append hl)
    refine ⟨fun t ht => ?_, List.pairwise_cons.mpr ⟨fun t ht => ?_, h.ordered⟩,
      fun start form text hs hst => ?_⟩
    · rcases List.mem_cons.mp ht with rfl | ht
      · exact ⟨le_rfl, hstands⟩
      · obtain ⟨hge, hst⟩ := h.standsAt t ht
        rw [hlen] at hge
        rw [htext]
        exact ⟨by omega, hst⟩
    · have hge := (h.standsAt t ht).1
      rw [hlen] at hge
      exact hge
    · by_cases hlt : start < front.length + l.text.length
      · exact ⟨⟨l, front.length⟩, by simp, hs, hlt⟩
      · rw [htext] at hst
        obtain ⟨t, ht, h1, h2⟩ := h.covered start form text (by omega) hst
        exact ⟨t, by simp [ht], h1, h2⟩

/-- Where a literal begins, it is the first token, and the scanned beginning grows by it. -/
lemma isScanFrom_append (hl : IsLiteral rest l.form l.text) :
    IsScanFrom front (l.text ++ rest) tokens ↔
      ∃ tail, tokens = ⟨l, front.length⟩ :: tail ∧ IsScanFrom (front ++ l.text) rest tail := by
  constructor
  · intro h
    obtain ⟨tail, rfl⟩ := h.exists_tail hl
    exact ⟨tail, rfl, (isScanFrom_token_cons hl).mp h⟩
  · rintro ⟨tail, rfl, h⟩
    exact (isScanFrom_token_cons hl).mpr h

end Literal

/-- The scan from an offset finds the tokens behind the beginning that ends there, and these are the
only list of tokens that is right. -/
theorem isScanFrom_iff {front s : Text} {tokens : List Token} :
    IsScanFrom front s tokens ↔ tokens = Token.scanFrom front.length s := by
  induction s using Literal.scanInduction generalizing front tokens with
  | nil => rw [isScanFrom_nil, Token.scanFrom_nil]
  | literal l rest hl ih =>
      rw [isScanFrom_append hl, Token.scanFrom_append hl]
      simp only [ih, List.length_append, exists_eq_right]
  | skip c s hnone ih =>
      rw [isScanFrom_cons hnone, ih, Token.scanFrom_cons hnone, List.length_append,
        List.length_singleton]

/-! ### The tokens of a text -/

/-- What a list of tokens has to be in order to be the tokens of a text: literals of the text where
they stand, from left to right without overlap, such that every literal of the text begins inside
one of them. -/
structure IsScan (s : Text) (tokens : List Token) : Prop where
  standsAt : ∀ t ∈ tokens, StandsAt s t.start t.form t.text
  text_eq : ∀ t ∈ tokens, t.text = (s.drop t.start).take (t.stop - t.start)
  bounds : ∀ t ∈ tokens, t.start < t.stop ∧ t.stop ≤ s.length
  ordered : tokens.Pairwise fun t u => t.start < u.start ∧ t.stop ≤ u.start
  covered : ∀ start form text, StandsAt s start form text →
    ∃ t ∈ tokens, t.start ≤ start ∧ start < t.stop

lemma isScan_iff_isScanFrom {s : Text} {tokens : List Token} :
    IsScan s tokens ↔ IsScanFrom [] s tokens := by
  constructor
  · intro h
    exact ⟨fun t ht => ⟨Nat.zero_le _, h.standsAt t ht⟩, h.ordered.imp And.right,
      fun start form text _ hst => h.covered start form text hst⟩
  · intro h
    have hstands (t : Token) (ht : t ∈ tokens) : StandsAt s t.start t.form t.text :=
      (h.standsAt t ht).2
    refine ⟨hstands, fun t ht => ?_, fun t ht => (hstands t ht).stop_le, ?_,
      fun start form text hst => h.covered start form text (Nat.zero_le _) hst⟩
    · rw [Token.stop, Nat.add_sub_cancel_left]
      exact (hstands t ht).text_eq
    · refine h.ordered.imp_of_mem fun {t u} ht _ hle => ⟨?_, hle⟩
      exact lt_of_lt_of_le (h.start_lt_stop ht) hle

/-- **The tokens of a text** are determined by what they have to be: the scan is sound, it misses no
literal, and no other list of tokens does the same. -/
theorem isScan_iff_eq_scan (s : Text) (tokens : List Token) :
    IsScan s tokens ↔ tokens = Token.scan s := by
  rw [isScan_iff_isScanFrom, isScanFrom_iff]
  rfl

end Swatch
