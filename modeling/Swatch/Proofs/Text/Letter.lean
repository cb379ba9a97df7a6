import Mathlib.Tactic
import Swatch.Text.Letter
/-!
Letters of either case, described by code points, and words spelled in them.

* `toNat_toLower`, `toNat_toUpper`: what the two cases of a letter are.
* `IsLetter`: the characters that are read as a lower-case letter; `foldLetter_eq_iff` says that
  they are the ones that fold to it.
* `Spells`: a name spells a word, letter by letter.
* `Text.dropFolded?_eq_some_iff`: what follows a spelled word.
* `lowerLetter_eq_iff`, `foldLetter_lowerLetter`: what lower case keeps of a text.
-/

namespace Swatch

/-- The lower-case letters of ASCII. -/
def IsLowerLetter (w : Char) : Prop := 97 ≤ w.toNat ∧ w.toNat ≤ 122

instance (w : Char) : Decidable (IsLowerLetter w) := by
  unfold IsLowerLetter
  infer_instance

/-- A character is read as a lower-case letter: it is that letter in either case, the long s or the
Kelvin sign. -/
def IsLetter (w c : Char) : Prop :=
  c = w ∨ c = w.toUpper ∨ (w = 's' ∧ c = longS) ∨ (w = 'k' ∧ c = kelvinSign)

/-- A name spells a word in lower case. -/
def Spells (word name : Text) : Prop := List.Forall₂ IsLetter word name

/-! ### The two cases of a letter -/

/-- The numbers of the capital letters of ASCII are 32 below those of the small ones. -/
lemma toNat_toLower (c : Char) :
    c.toLower.toNat = if 65 ≤ c.toNat ∧ c.toNat ≤ 90 then c.toNat + 32 else c.toNat := by
  have hA : ('A'.val ≤ c.val) ↔ 65 ≤ c.toNat := UInt32.le_iff_toNat_le
  have hZ : (c.val ≤ 'Z'.val) ↔ c.toNat ≤ 90 := UInt32.le_iff_toNat_le
  unfold Char.toLower
  split
  · next h =>
    rw [ge_iff_le, hA, hZ] at h
    rw [if_pos h]
    change (c.val + 32).toNat = c.val.toNat + 32
    have hc : c.val.toNat ≤ 90 := h.2
    rw [UInt32.toNat_add]
    exact Nat.mod_eq_of_lt (by change c.val.toNat + 32 < 2 ^ 32; omega)
  · next h =>
    rw [ge_iff_le, hA, hZ] at h
    rw [if_neg h]

lemma toNat_toUpper (c : Char) :
    c.toUpper.toNat = if 97 ≤ c.toNat ∧ c.toNat ≤ 122 then c.toNat - 32 else c.toNat := by
  have ha : ('a'.val ≤ c.val) ↔ 97 ≤ c.toNat := UInt32.le_iff_toNat_le
  have hz : (c.val ≤ 'z'.val) ↔ c.toNat ≤ 122 := UInt32.le_iff_toNat_le
  unfold Char.toUpper
  split
  · next h =>
    rw [ha, hz] at h
    rw [if_pos h]
    change (c.val + ('A'.val - 'a'.val)).toNat = c.val.toNat - 32
    have h1 : 97 ≤ c.val.toNat := h.1
    have h2 : c.val.toNat ≤ 122 := h.2
    rw [UInt32.toNat_add, show ('A'.val - 'a'.val).toNat = 4294967264 from by decide]
    omega
  · next h =>
    rw [ha, hz] at h
    rw [if_neg h]

lemma toNat_toUpper_of_lower {w : Char} (hw : IsLowerLetter w) :
    w.toUpper.toNat = w.toNat - 32 := by
  rw [toNat_toUpper]
  exact if_pos hw

/-- Two characters have a given letter as their ASCII lower case. -/
lemma toLower_eq_iff {w c : Char} (hw : IsLowerLetter w) :
    c.toLower = w ↔ c = w ∨ c = w.toUpper := by
  have hl := toNat_toLower c
  have hu := toNat_toUpper_of_lower hw
  obtain ⟨h1, h2⟩ := hw
  rw [← Char.toNat_inj, ← Char.toNat_inj, ← Char.toNat_inj]
  split at hl <;> omega

/-- The characters that fold to a lower-case letter are those that are read as it. -/
lemma foldLetter_eq_iff {w c : Char} (hw : IsLowerLetter w) : foldLetter c = w ↔ IsLetter w c := by
  have hlong : ¬ IsLowerLetter longS := by decide
  have hkelvin : ¬ IsLowerLetter kelvinSign := by decide
  have hupper : ∀ d, ¬ (d.toNat ≤ 90) → d ≠ w.toUpper := by
    intro d hd heq
    have := hw.2
    rw [heq, toNat_toUpper_of_lower hw] at hd
    omega
  rw [foldLetter, lowerLetter, IsLetter]
  by_cases h : c = longS
  · subst h
    have hne : longS ≠ w := fun heq => hlong (heq ▸ hw)
    have hne' := hupper longS (by decide)
    have hk : longS ≠ kelvinSign := by decide
    simp [hne, hne', hk, eq_comm]
  · by_cases h' : c = kelvinSign
    · subst h'
      have hne : kelvinSign ≠ w := fun heq => hkelvin (heq ▸ hw)
      have hne' := hupper kelvinSign (by decide)
      simp [h, hne, hne', eq_comm]
    · simp [h, h', toLower_eq_iff hw]

/-! ### Spelled words -/

lemma Spells.length_eq {word name : Text} (h : Spells word name) : word.length = name.length :=
  List.Forall₂.length_eq h

/-- Whatever spells a word folds to it, so it spells one word only. -/
lemma Spells.map_foldLetter {word name : Text} (h : Spells word name)
    (hw : ∀ w ∈ word, IsLowerLetter w) : name.map foldLetter = word := by
  induction h with
  | nil => rfl
  | cons hc _ ih =>
      rw [List.map_cons, (foldLetter_eq_iff (hw _ (by simp))).mpr hc,
        ih fun w h => hw w (by simp [h])]

/-- A word is dropped from a text that begins with a name which spells it. -/
lemma Text.dropFolded?_eq_some_iff {word s rest : Text} (hw : ∀ w ∈ word, IsLowerLetter w) :
    Text.dropFolded? word s = some rest ↔ ∃ name, Spells word name ∧ s = name ++ rest := by
  induction word generalizing s with
  | nil => simp [Text.dropFolded?, Spells]
  | cons w word ih =>
      have hfold {c : Char} := foldLetter_eq_iff (c := c) (hw w (by simp))
      have ih' {s : Text} := ih (s := s) fun w h => hw w (by simp [h])
      cases s with
      | nil =>
          rw [Text.dropFolded?]
          constructor
          · exact fun h => absurd h (by simp)
          · rintro ⟨name, hname, heq⟩
            have hnil : name = [] := (List.append_eq_nil_iff.mp heq.symm).1
            rw [hnil] at hname
            cases hname
      | cons c s =>
          rw [Text.dropFolded?]
          constructor
          · intro h
            split at h
            · next hc =>
              obtain ⟨name, hname, rfl⟩ := ih'.mp h
              exact ⟨c :: name, List.Forall₂.cons (hfold.mp hc) hname, rfl⟩
            · exact absurd h (by simp)
          · rintro ⟨name, hname, heq⟩
            cases hname with
            | cons hc hname =>
                rw [List.cons_append, List.cons.injEq] at heq
                obtain ⟨rfl, rfl⟩ := heq
                rw [if_pos (hfold.mpr hc)]
                exact ih'.mpr ⟨_, hname, rfl⟩

/-! ### Lower case -/

lemma toLower_ne_kelvinSign {c : Char} (h : c ≠ kelvinSign) : c.toLower ≠ kelvinSign := by
  intro heq
  have hc := toNat_toLower c
  have hk : kelvinSign.toNat = 8490 := rfl
  rw [heq, hk] at hc
  rw [ne_eq, ← Char.toNat_inj, hk] at h
  split at hc <;> omega

/-- Lower case is its own lower case. -/
@[simp] lemma lowerLetter_lowerLetter (c : Char) :
    lowerLetter (lowerLetter c) = lowerLetter c := by
  by_cases h : c = kelvinSign
  · rw [h]
    rfl
  · rw [show lowerLetter c = c.toLower from if_neg h]
    refine (if_neg (toLower_ne_kelvinSign h)).trans ?_
    have hl := toNat_toLower c
    have hl' := toNat_toLower c.toLower
    rw [← Char.toNat_inj]
    split at hl <;> split at hl' <;> omega

/-- A character that lower case does not concern is the lower case of itself only. -/
lemma lowerLetter_eq_iff {c d : Char} (hd : d.toNat < 65) : lowerLetter c = d ↔ c = d := by
  have hl := toNat_toLower c
  by_cases h : c = kelvinSign
  · subst h
    have hk : lowerLetter kelvinSign ≠ d := by
      rintro rfl
      exact absurd hd (by decide)
    have hk' : kelvinSign ≠ d := by
      rintro rfl
      exact absurd hd (by decide)
    exact iff_of_false hk hk'
  · rw [show lowerLetter c = c.toLower from if_neg h, ← Char.toNat_inj, ← Char.toNat_inj]
    split at hl <;> omega

/-- Lower case does not change what letter a character stands for. -/
@[simp] lemma foldLetter_lowerLetter (c : Char) : foldLetter (lowerLetter c) = foldLetter c := by
  by_cases h : c = longS
  · rw [h]
    rfl
  · have hl := toNat_toLower c
    have hs : longS.toNat = 383 := rfl
    have hne : lowerLetter c ≠ longS := by
      by_cases hk : c = kelvinSign
      · rw [hk]
        decide
      · rw [show lowerLetter c = c.toLower from if_neg hk, ne_eq, ← Char.toNat_inj, hs]
        rw [← Char.toNat_inj, hs] at h
        split at hl <;> omega
    rw [foldLetter, if_neg hne, lowerLetter_lowerLetter, foldLetter, if_neg h]

/-- A lower-case letter stands for itself. -/
lemma foldLetter_of_isLowerLetter {w : Char} (hw : IsLowerLetter w) : foldLetter w = w :=
  (foldLetter_eq_iff hw).mpr (Or.inl rfl)

/-- A letter in lower case stays as it is. -/
lemma lowerLetter_of_isLowerLetter {w : Char} (hw : IsLowerLetter w) : lowerLetter w = w := by
  have hne : w ≠ longS := by
    rintro rfl
    exact absurd hw (by decide)
  rw [← show foldLetter w = lowerLetter w from if_neg hne, foldLetter_of_isLowerLetter hw]

/-- A character that stands for a letter is lower-cased to that letter or is the long s. -/
lemma lowerLetter_eq_or {c : Char} : lowerLetter c = foldLetter c ∨ lowerLetter c = longS := by
  by_cases h : c = longS
  · rw [h]
    exact Or.inr rfl
  · rw [foldLetter, if_neg h]
    exact Or.inl rfl

@[simp] lemma Text.length_lower (s : Text) : (Text.lower s).length = s.length :=
  List.length_map _

@[simp] lemma Text.lower_lower (s : Text) : Text.lower (Text.lower s) = Text.lower s := by
  simp [Text.lower]

/-- A text of characters that are in lower case stays as it is. -/
lemma Text.lower_eq_self {s : Text} (h : ∀ c ∈ s, lowerLetter c = c) : Text.lower s = s :=
  (List.map_congr_left h).trans (List.map_id s)

/-- A sign before the capital letters stands in the lower case of a text just if it does in the
text. -/
lemma Text.mem_lower_iff {s : Text} {d : Char} (hd : d.toNat < 65) :
    d ∈ Text.lower s ↔ d ∈ s := by
  simp [Text.lower, lowerLetter_eq_iff hd]

lemma Text.count_lower {s : Text} {d : Char} (hd : d.toNat < 65) :
    (Text.lower s).count d = s.count d := by
  rw [Text.lower, List.count, List.countP_map]
  refine List.countP_congr fun c _ => ?_
  simp [lowerLetter_eq_iff hd]

end Swatch
