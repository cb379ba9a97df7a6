import Mathlib.Data.List.TakeWhile
import Mathlib.Tactic
import Swatch.Text.Basic
/-!
The parts into which a text is taken, described by what they hold and where they end.

A run ends where a character comes that it cannot hold, so a text that is put together from runs
is taken apart into the same runs again.  Each reader of `Swatch.Text.Basic` has one statement
that says what it found, and that it finds what is there.

* `Text.Stops`: no character of a class comes first.
* `Text.span_eq_iff`, `Text.run?_eq_some_iff`: a run and what follows it.
* `Text.dropWord?_eq_some_iff`: a word and what follows it.
* `Text.trim_eq_self`: nothing is trimmed off a text whose ends are not of the class.
-/

namespace Swatch.Text

/-- No character of a class comes first. -/
def Stops (p : Char → Bool) (s : Text) : Prop := ∀ c ∈ s.head?, p c = false

@[simp] lemma stops_nil (p : Char → Bool) : Stops p [] := by simp [Stops]

@[simp] lemma stops_cons {p : Char → Bool} {c : Char} {s : Text} :
    Stops p (c :: s) ↔ p c = false := by simp [Stops]

lemma stops_dropWhile (p : Char → Bool) (s : Text) : Stops p (s.dropWhile p) := by
  intro c hc
  have h := List.head?_dropWhile_not p s
  rw [Option.mem_def.mp hc] at h
  exact h

/-- A class whose characters do not come first has no run at the start. -/
lemma takeWhile_eq_nil_iff {p : Char → Bool} {s : Text} : s.takeWhile p = [] ↔ Stops p s := by
  cases s with
  | nil => simp
  | cons c s => simp [List.takeWhile_cons]

/-- A run is as long as it can be. -/
lemma span_eq_iff {p : Char → Bool} {s run rest : Text} :
    span p s = (run, rest) ↔ s = run ++ rest ∧ (∀ c ∈ run, p c) ∧ Stops p rest := by
  constructor
  · intro h
    obtain ⟨rfl, rfl⟩ := Prod.mk.inj h
    exact ⟨List.takeWhile_append_dropWhile.symm, fun c hc => List.mem_takeWhile_imp hc,
      stops_dropWhile p s⟩
  · rintro ⟨rfl, hrun, hrest⟩
    have htake : rest.takeWhile p = [] := takeWhile_eq_nil_iff.mpr hrest
    have hdrop : rest.dropWhile p = rest := by
      cases rest with
      | nil => rfl
      | cons c rest => simp [stops_cons.mp hrest]
    rw [span, List.takeWhile_append_of_pos hrun, List.dropWhile_append_of_pos hrun, htake, hdrop,
      List.append_nil]

/-- Of two texts a run is the same part, if behind it both go on with the same run. -/
lemma run_inj {p : Char → Bool} {run run' rest rest' : Text} (hrun : ∀ c ∈ run, p c)
    (hrun' : ∀ c ∈ run', p c) (hrest : rest.takeWhile p = rest'.takeWhile p)
    (h : run ++ rest = run' ++ rest') : run = run' := by
  have hwhole := congrArg (List.takeWhile p) h
  rw [List.takeWhile_append_of_pos hrun, List.takeWhile_append_of_pos hrun', hrest] at hwhole
  exact List.append_cancel_right hwhole

/-- A text is read up to the first of a character. -/
lemma span_of_notMem {c : Char} {s : Text} (h : c ∉ s) (t : Text) :
    span (· ≠ c) (s ++ c :: t) = (s, c :: t) := by
  refine span_eq_iff.mpr ⟨rfl, fun d hd => ?_, by simp⟩
  simpa using ne_of_mem_of_not_mem hd h

/-- A text is divided at the first of a character in one way. -/
lemma append_cons_inj {c : Char} {s s' t t' : Text} (hs : c ∉ s) (hs' : c ∉ s')
    (h : s ++ c :: t = s' ++ c :: t') : s = s' ∧ t = t' := by
  have key := span_of_notMem hs t
  rw [h, span_of_notMem hs' t', Prod.mk.injEq, List.cons.injEq] at key
  exact ⟨key.1.symm, key.2.2.symm⟩

/-- A text is divided at the last of a character in one way. -/
lemma append_cons_inj_right {c : Char} {s s' t t' : Text} (ht : c ∉ t) (ht' : c ∉ t')
    (h : s ++ c :: t = s' ++ c :: t') : s = s' ∧ t = t' := by
  have hrev := congrArg List.reverse h
  simp only [List.reverse_append, List.reverse_cons, List.append_assoc,
    List.singleton_append] at hrev
  obtain ⟨h1, h2⟩ := append_cons_inj (by rwa [List.mem_reverse]) (by rwa [List.mem_reverse]) hrev
  exact ⟨List.reverse_injective h2, List.reverse_injective h1⟩

/-- A run that is found is as long as it can be, and there is at least one character of it. -/
lemma run?_eq_some_iff {p : Char → Bool} {s run rest : Text} :
    run? p s = some (run, rest) ↔
      s = run ++ rest ∧ run ≠ [] ∧ (∀ c ∈ run, p c) ∧ Stops p rest := by
  have key : run? p s = some (run, rest) ↔ span p s = (run, rest) ∧ run ≠ [] := by
    rw [run?]
    constructor
    · intro h
      split at h
      · exact absurd h (by simp)
      · next hne =>
        rw [Option.some.injEq] at h
        exact ⟨h, fun hnil => hne rest (by rw [h, hnil])⟩
    · rintro ⟨h, hne⟩
      rw [h]
      cases run with
      | nil => exact absurd rfl hne
      | cons c run => rfl
  rw [key, span_eq_iff]
  tauto

/-- A word is dropped from a text that begins with it. -/
lemma dropWord?_eq_some_iff {word s rest : Text} :
    dropWord? word s = some rest ↔ s = word ++ rest := by
  rw [dropWord?]
  induction word generalizing s with
  | nil => simp [List.isPrefixOf?, eq_comm]
  | cons w word ih =>
    cases s with
    | nil => simp [List.isPrefixOf?]
    | cons c s =>
      by_cases hwc : w = c
      · subst hwc
        simp [List.isPrefixOf?, ih]
      · simp [List.isPrefixOf?, hwc, Ne.symm hwc]

@[simp] lemma dropWord?_append (word s : Text) : dropWord? word (word ++ s) = some s :=
  dropWord?_eq_some_iff.mpr rfl

lemma dropWord?_cons_of_stops {c : Char} {word s : Text} (h : Stops (· = c) s) :
    dropWord? (c :: word) s = none := by
  cases s with
  | nil => rfl
  | cons d s =>
      have hd : d ≠ c := by simpa using h
      simp [dropWord?, List.isPrefixOf?, Ne.symm hd]

/-- What may stand at the start is dropped if it is there. -/
lemma dropOptionalWord_append {c : Char} {word o t : Text} (ho : o = [] ∨ o = c :: word)
    (ht : Stops (· = c) t) : dropOptionalWord (c :: word) (o ++ t) = t := by
  rcases ho with rfl | rfl
  · rw [dropOptionalWord, List.nil_append, dropWord?_cons_of_stops ht, Option.getD_none]
  · rw [dropOptionalWord, dropWord?_append, Option.getD_some]

lemma stops_optional {p : Char → Bool} {c : Char} {word o t : Text} (ho : o = [] ∨ o = c :: word)
    (hc : p c = false) (ht : Stops p t) : Stops p (o ++ t) := by
  rcases ho with rfl | rfl
  · exact ht
  · exact stops_cons.mpr hc

/-- What is dropped is the word or nothing. -/
lemma exists_dropOptionalWord (word s : Text) :
    ∃ found, (found = [] ∨ found = word) ∧ s = found ++ dropOptionalWord word s := by
  rw [dropOptionalWord]
  cases h : dropWord? word s with
  | none => exact ⟨[], Or.inl rfl, rfl⟩
  | some t => exact ⟨word, Or.inr rfl, dropWord?_eq_some_iff.mp h⟩

/-- A character that may stand at the start is a word of one letter. -/
lemma dropOptional_eq (c : Char) (s : Text) : dropOptional c s = dropOptionalWord [c] s := by
  cases s with
  | nil => rfl
  | cons d s =>
      by_cases hd : d = c
      · simp [dropOptional, dropOptionalWord, dropWord?, List.isPrefixOf?, hd]
      · simp [dropOptional, dropOptionalWord, dropWord?, List.isPrefixOf?, hd, Ne.symm hd]

/-- Nothing is trimmed off a text whose ends are not of the class. -/
lemma trim_eq_self {p : Char → Bool} {s : Text} (hfront : Stops p s) (hback : Stops p s.reverse) :
    trim p s = s := by
  have h {t : Text} (ht : Stops p t) : t.dropWhile p = t := by
    cases t with
    | nil => rfl
    | cons c t => simp [stops_cons.mp ht]
  rw [trim, h hfront, h hback, List.reverse_reverse]

end Swatch.Text
