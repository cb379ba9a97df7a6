import Swatch.Proofs.Document.Gaps
/-!
Edits that stand in a text one behind the other touch nothing but their stretches, and can be taken
back.

Such edits cut the text into changes: each is a stretch that is kept and, behind it, one that is
replaced.  The text, the edits and the edited text can all be read off the changes.  With every
change turned round, the edited text is the one to start from, and the edits lead back.

* `Edit.InOrder`: edits within a text, none starting before the one in front of it has ended.
* `Edit.shift`, `Edit.undo`: how far edits move what stands behind them, and the edits that put
  back what they replace.
* `Change.before`, `Change.editsFrom`: the text and the edits of changes.
* `Edit.InOrder.exists_changes`: edits in order are the edits of changes.
* `Change.editGapsFrom_editsFrom`, `Change.apply_editsFrom`, `Change.undo_editsFrom`: the gaps, the
  edited text and the edits that lead back, read off the changes.
* `Edit.apply_inOrder`: what edits in order do to a text.
* `Document.restore_convert`: a converted document can be turned back into the original.
-/

namespace Swatch

namespace Edit

/-- Edits stand in a text one behind the other: each replaces a stretch of the text, and none starts
before the one in front of it has ended. -/
structure InOrder (s : Text) (edits : List Edit) : Prop where
  within : ∀ e ∈ edits, 0 ≤ e.start ∧ e.start ≤ e.stop ∧ e.stop ≤ s.length
  apart : edits.IsChain fun e f => e.stop ≤ f.start

/-- By how many characters an edit makes a text longer. -/
def growth (e : Edit) : Int := e.text.length - (e.stop - e.start)

/-- By how many characters the edits in front of an index move what stands behind them. -/
def shift (edits : List Edit) (i : Nat) : Int := ((edits.take i).map growth).sum

/-- The edit that puts back what an edit of a text has replaced, if it has been moved. -/
def putBack (s : Text) (moved : Int) (e : Edit) : Edit :=
  ⟨e.start + moved, e.start + moved + e.text.length, Text.slice e.start e.stop s⟩

/-- The edits that put back what edits of a text have replaced. -/
def undo (s : Text) (edits : List Edit) : List Edit :=
  edits.mapIdx fun i e => e.putBack s (shift edits i)

@[simp] lemma shift_zero (edits : List Edit) : shift edits 0 = 0 := rfl

@[simp] lemma shift_cons_succ (e : Edit) (edits : List Edit) (i : Nat) :
    shift (e :: edits) (i + 1) = e.growth + shift edits i := rfl

end Edit

/-- A stretch of a text that is replaced, with the stretch in front of it that is kept. -/
structure Change where
  kept : Text
  old : Text
  new : Text

namespace Change

/-- The change that leads back. -/
def turned (c : Change) : Change := ⟨c.kept, c.new, c.old⟩

/-- The text before changes, with what follows the last of them. -/
def before (rest : Text) : List Change → Text
  | [] => rest
  | c :: changes => c.kept ++ (c.old ++ before rest changes)

/-- The text after changes. -/
def after (rest : Text) (changes : List Change) : Text := before rest (changes.map turned)

/-- The edits of changes in a text that has them from an offset on. -/
def editsFrom (cursor : Nat) : List Change → List Edit
  | [] => []
  | c :: changes =>
      let start := cursor + c.kept.length
      ⟨start, (start + c.old.length : Nat), c.new⟩ :: editsFrom (start + c.old.length) changes

/-- A text with a change in it, put together so that the change belongs to the front. -/
lemma append_before_cons (front rest : Text) (c : Change) (changes : List Change) :
    front ++ before rest (c :: changes) = front ++ c.kept ++ c.old ++ before rest changes := by
  simp only [before, List.append_assoc]

lemma length_append_change (front : Text) (c : Change) :
    (front ++ c.kept ++ c.old).length = front.length + c.kept.length + c.old.length := by
  rw [List.length_append, List.length_append]

/-! ### What the edits of changes find and do -/

lemma slice_kept (front rest : Text) (c : Change) (changes : List Change) :
    Text.slice (front.length : Int) ((front.length + c.kept.length : Nat) : Int)
      (front ++ before rest (c :: changes)) = c.kept := by
  rw [Document.slice_natCast, List.drop_left, Nat.add_sub_cancel_left, before, List.take_left]

lemma slice_old (front rest : Text) (c : Change) (changes : List Change) :
    Text.slice ((front.length + c.kept.length : Nat) : Int)
      ((front.length + c.kept.length + c.old.length : Nat) : Int)
      (front ++ before rest (c :: changes)) = c.old := by
  rw [Document.slice_natCast, append_before_cons, ← List.length_append, List.append_assoc,
    List.drop_left, Nat.add_sub_cancel_left, List.take_left]

lemma texts_editsFrom (cursor : Nat) (changes : List Change) :
    (editsFrom cursor changes).map (fun e => e.text) = changes.map new := by
  induction changes generalizing cursor with
  | nil => rfl
  | cons c changes ih => rw [editsFrom, List.map_cons, List.map_cons, ih]

/-- The gaps around the edits of changes are the stretches that are kept. -/
lemma editGapsFrom_editsFrom (front rest : Text) (changes : List Change) :
    Document.editGapsFrom (front ++ before rest changes) (front.length : Int)
      (editsFrom front.length changes) = changes.map kept ++ [rest] := by
  induction changes generalizing front with
  | nil => simp [editsFrom, Document.editGapsFrom, Document.sliceFrom_natCast, before]
  | cons c changes ih =>
      have hrest := ih (front ++ c.kept ++ c.old)
      rw [← append_before_cons, length_append_change] at hrest
      rw [editsFrom, Document.editGapsFrom, slice_kept, hrest, List.map_cons, List.cons_append]

/-- What the edits of changes replace is what the changes replace. -/
lemma slices_editsFrom (front rest : Text) (changes : List Change) :
    (editsFrom front.length changes).map
        (fun e => Text.slice e.start e.stop (front ++ before rest changes))
      = changes.map old := by
  induction changes generalizing front with
  | nil => rfl
  | cons c changes ih =>
      have hrest := ih (front ++ c.kept ++ c.old)
      rw [← append_before_cons, length_append_change] at hrest
      rw [editsFrom, List.map_cons, slice_old, hrest, List.map_cons]

lemma weave_old (rest : Text) (changes : List Change) :
    Document.weave (changes.map kept ++ [rest]) (changes.map old) = before rest changes := by
  induction changes with
  | nil => simp [Document.weave, before]
  | cons c changes ih => simp only [List.map_cons, List.cons_append, Document.weave, before, ih]

lemma weave_new (rest : Text) (changes : List Change) :
    Document.weave (changes.map kept ++ [rest]) (changes.map new) = after rest changes := by
  rw [after, ← weave_old, List.map_map, List.map_map]
  rfl

/-- The edits of changes lead from the text before to the text after. -/
lemma apply_editsFrom (rest : Text) (changes : List Change) :
    Edit.apply (before rest changes) (editsFrom 0 changes) = after rest changes := by
  have hgaps := editGapsFrom_editsFrom [] rest changes
  rw [List.nil_append, List.length_nil, Int.natCast_zero] at hgaps
  rw [Edit.apply, Document.applyFrom_eq_weave, hgaps, texts_editsFrom, weave_new]

lemma length_after (rest : Text) (cursor : Nat) (changes : List Change) :
    ((after rest changes).length : Int)
      = (before rest changes).length + ((editsFrom cursor changes).map Edit.growth).sum := by
  induction changes generalizing cursor with
  | nil => simp [after, before, editsFrom]
  | cons c changes ih =>
      have hrest := ih (cursor + c.kept.length + c.old.length)
      rw [after] at hrest
      simp only [after, List.map_cons, before, turned, editsFrom, List.sum_cons, List.length_append,
        Nat.cast_add, Edit.growth, hrest]
      ring

/-- An edit of changes starts where the text that its change replaces starts. -/
lemma exists_start_editsFrom (front rest : Text) (changes : List Change) {i : Nat} {e : Edit}
    (h : (editsFrom front.length changes)[i]? = some e) :
    ∃ c head tail, changes[i]? = some c ∧ front ++ before rest changes = head ++ (c.old ++ tail)
      ∧ (head.length : Int) = e.start := by
  induction changes generalizing front i with
  | nil => simp [editsFrom] at h
  | cons c changes ih =>
      cases i with
      | zero =>
          obtain rfl : _ = e := Option.some.inj h
          refine ⟨c, front ++ c.kept, before rest changes, rfl, ?_, ?_⟩
          · rw [append_before_cons, List.append_assoc]
          · rw [List.length_append]
      | succ i =>
          rw [editsFrom, List.getElem?_cons_succ, ← length_append_change] at h
          obtain ⟨d, head, tail, hd, htext, hlen⟩ := ih (front ++ c.kept ++ c.old) h
          exact ⟨d, head, tail, hd, by rw [append_before_cons, htext], hlen⟩

/-! ### Turning changes round -/

lemma map_turned_turned (changes : List Change) : (changes.map turned).map turned = changes := by
  rw [List.map_map]
  exact List.map_id changes

lemma after_turned (rest : Text) (changes : List Change) :
    after rest (changes.map turned) = before rest changes := by
  rw [after, map_turned_turned]

/-- Behind a front that the edits have moved, what they replace is put back by the edits of the
changes turned round. -/
lemma mapIdx_putBack_editsFrom (front rest : Text) (changes : List Change) (cursor : Nat) :
    ((editsFrom front.length changes).mapIdx fun i e =>
        e.putBack (front ++ before rest changes)
          ((cursor : Int) - front.length + Edit.shift (editsFrom front.length changes) i))
      = editsFrom cursor (changes.map turned) := by
  induction changes generalizing front cursor with
  | nil => rfl
  | cons c changes ih =>
      have hrest := ih (front ++ c.kept ++ c.old) (cursor + c.kept.length + c.new.length)
      rw [← append_before_cons, length_append_change] at hrest
      have hmoved : ∀ x : Int, (cursor : Int) - front.length
            + (Edit.growth ⟨(front.length + c.kept.length : Nat),
                (front.length + c.kept.length + c.old.length : Nat), c.new⟩ + x)
          = ((cursor + c.kept.length + c.new.length : Nat) : Int)
              - ((front.length + c.kept.length + c.old.length : Nat) : Int) + x := by
        intro x
        rw [Edit.growth]
        push_cast
        ring
      have hhead : Edit.putBack (front ++ before rest (c :: changes))
            ((cursor : Int) - front.length)
            ⟨(front.length + c.kept.length : Nat),
              (front.length + c.kept.length + c.old.length : Nat), c.new⟩
          = ⟨(cursor + c.kept.length : Nat), (cursor + c.kept.length + c.new.length : Nat),
              c.old⟩ := by
        rw [Edit.putBack, slice_old, Edit.mk.injEq]
        exact ⟨by push_cast; ring, by push_cast; ring, rfl⟩
      rw [editsFrom, List.mapIdx_cons]
      simp only [Edit.shift_cons_succ, Edit.shift_zero, add_zero, hmoved]
      rw [hrest, hhead]
      rfl

/-- The edits that put back what the edits of changes replace are those of the changes turned
round. -/
lemma undo_editsFrom (rest : Text) (changes : List Change) :
    Edit.undo (before rest changes) (editsFrom 0 changes) = editsFrom 0 (changes.map turned) := by
  have h := mapIdx_putBack_editsFrom [] rest changes 0
  simp only [List.length_nil, Int.natCast_zero, sub_self, zero_add, List.nil_append] at h
  exact h

end Change

namespace Edit

open Change

/-! ### Edits in order -/

/-- A stretch behind a front divides what stands there into three. -/
lemma exists_stretch {front s : Text} {start stop : Int} (hstart : (front.length : Int) ≤ start)
    (hle : start ≤ stop) (hstop : stop ≤ (front ++ s).length) :
    ∃ kept old rest : Text, s = kept ++ (old ++ rest) ∧
      start = (front.length + kept.length : Nat) ∧
      stop = (front.length + kept.length + old.length : Nat) := by
  rw [List.length_append] at hstop
  obtain ⟨a, rfl⟩ : ∃ a : Nat, start = (front.length + a : Nat) :=
    ⟨(start - front.length).toNat, by omega⟩
  obtain ⟨b, rfl⟩ : ∃ b : Nat, stop = (front.length + a + b : Nat) :=
    ⟨(stop - (front.length + a : Nat)).toNat, by omega⟩
  have hkept : (s.take a).length = a := List.length_take_of_le (by omega)
  have hold : ((s.drop a).take b).length = b :=
    List.length_take_of_le (by rw [List.length_drop]; omega)
  refine ⟨s.take a, (s.drop a).take b, (s.drop a).drop b, ?_, ?_, ?_⟩
  · rw [List.take_append_drop, List.take_append_drop]
  · rw [hkept]
  · rw [hkept, hold]

/-- Edits behind a front that stand one behind the other are the edits of changes. -/
lemma exists_changes_append {edits : List Edit} (front s : Text)
    (hwithin : ∀ e ∈ edits, e.start ≤ e.stop ∧ e.stop ≤ (front ++ s).length)
    (hfirst : ∀ e ∈ edits.head?, (front.length : Int) ≤ e.start)
    (hapart : edits.IsChain fun e f => e.stop ≤ f.start) :
    ∃ changes rest, s = before rest changes ∧ edits = editsFrom front.length changes := by
  induction edits generalizing front s with
  | nil => exact ⟨[], s, rfl, rfl⟩
  | cons e edits ih =>
      obtain ⟨start, stop, text⟩ := e
      obtain ⟨hle, hstop⟩ := hwithin _ List.mem_cons_self
      obtain ⟨hnext, hchain⟩ := List.isChain_cons.mp hapart
      obtain ⟨kept, old, s, rfl, rfl, rfl⟩ := exists_stretch (hfirst _ rfl) hle hstop
      -- the rest of the text has the kept and the replaced stretch in front of it
      let c : Change := ⟨kept, old, text⟩
      have hlength := length_append_change front c
      have hwhole : front ++ c.kept ++ c.old ++ s = front ++ (kept ++ (old ++ s)) := by
        simp only [c, List.append_assoc]
      obtain ⟨changes, rest, rfl, rfl⟩ := ih (front ++ c.kept ++ c.old) s
        (fun f hf => by rw [hwhole]; exact hwithin f (List.mem_cons_of_mem _ hf))
        (fun f hf => by rw [hlength]; exact hnext f hf) hchain
      exact ⟨c :: changes, rest, rfl, by rw [editsFrom, hlength]⟩

lemma InOrder.exists_changes {s : Text} {edits : List Edit} (h : InOrder s edits) :
    ∃ changes rest, s = before rest changes ∧ edits = editsFrom 0 changes := by
  refine exists_changes_append [] s (fun e he => (h.within e he).2) (fun e he => ?_) h.apart
  exact (h.within e (List.mem_of_mem_head? he)).1

/-- Edits in order, and then those that put back what they replace, leave a text as it is. -/
lemma InOrder.apply_undo {s : Text} {edits : List Edit} (h : InOrder s edits) :
    apply (apply s edits) (undo s edits) = s := by
  obtain ⟨changes, rest, rfl, rfl⟩ := h.exists_changes
  rw [undo_editsFrom, apply_editsFrom, after, apply_editsFrom, after_turned]

/-- The edits that put back what edits in order replace have the same gaps around them. -/
lemma InOrder.editGaps_undo {s : Text} {edits : List Edit} (h : InOrder s edits) :
    Document.editGaps (apply s edits) (undo s edits) = Document.editGaps s edits := by
  obtain ⟨changes, rest, rfl, rfl⟩ := h.exists_changes
  have hbefore := editGapsFrom_editsFrom [] rest changes
  have hafter := editGapsFrom_editsFrom [] rest (changes.map turned)
  rw [List.map_map] at hafter
  rw [undo_editsFrom, apply_editsFrom]
  exact hafter.trans hbefore.symm

/-- With the replaced stretches between them the gaps around edits in order are the text. -/
lemma InOrder.weave_slices {s : Text} {edits : List Edit} (h : InOrder s edits) :
    Document.weave (Document.editGaps s edits)
      (edits.map fun e => Text.slice e.start e.stop s) = s := by
  obtain ⟨changes, rest, rfl, rfl⟩ := h.exists_changes
  have hgaps := editGapsFrom_editsFrom [] rest changes
  have hold := slices_editsFrom [] rest changes
  exact (congrArg₂ Document.weave hgaps hold).trans (weave_old rest changes)

lemma InOrder.length_apply {s : Text} {edits : List Edit} (h : InOrder s edits) :
    ((apply s edits).length : Int) = s.length + (edits.map growth).sum := by
  obtain ⟨changes, rest, rfl, rfl⟩ := h.exists_changes
  rw [apply_editsFrom, length_after rest 0]

/-- An edit's text stands where the edits in front of it have moved the start of the edit. -/
lemma InOrder.exists_start_apply {s : Text} {edits : List Edit} (h : InOrder s edits) {i : Nat}
    {e : Edit} (he : edits[i]? = some e) :
    ∃ head tail, apply s edits = head ++ (e.text ++ tail)
      ∧ (head.length : Int) = e.start + shift edits i := by
  have hundo : (undo s edits)[i]? = some (e.putBack s (shift edits i)) := by
    rw [undo, List.getElem?_mapIdx, he]
    rfl
  obtain ⟨changes, rest, rfl, rfl⟩ := h.exists_changes
  have htexts := congrArg (fun texts => texts[i]?) (texts_editsFrom 0 changes)
  simp only [List.getElem?_map, he, Option.map_some] at htexts
  rw [undo_editsFrom] at hundo
  obtain ⟨c, head, tail, hc, htext, hlen⟩ := exists_start_editsFrom [] rest _ hundo
  rw [List.getElem?_map] at hc
  obtain ⟨d, hd, rfl⟩ := Option.map_eq_some_iff.mp hc
  rw [hd, Option.map_some, Option.some.injEq] at htexts
  refine ⟨head, tail, ?_, hlen⟩
  rw [apply_editsFrom, htexts]
  exact htext

/-- **Edits in order** touch nothing but their stretches, and can be taken back.  The text grows by
what the edits grow.  The text of each edit stands where the edits in front of it have moved its
start.  The edited text and the original are woven from the same gaps, which are also those around
the moved edits, and to put the replaced stretches back there restores the original. -/
theorem apply_inOrder (s : Text) (edits : List Edit) (h : InOrder s edits) :
    ((apply s edits).length : Int) = s.length + (edits.map growth).sum
      ∧ (∀ (i : Nat) (e : Edit), edits[i]? = some e →
        ∃ head tail, apply s edits = head ++ (e.text ++ tail)
          ∧ (head.length : Int) = e.start + shift edits i)
      ∧ apply s edits = Document.weave (Document.editGaps s edits) (edits.map fun e => e.text)
      ∧ Document.weave (Document.editGaps s edits)
          (edits.map fun e => Text.slice e.start e.stop s) = s
      ∧ Document.editGaps (apply s edits) (undo s edits) = Document.editGaps s edits
      ∧ apply (apply s edits) (undo s edits) = s := by
  refine ⟨h.length_apply, ?_, Document.applyFrom_eq_weave s 0 edits, h.weave_slices,
    h.editGaps_undo, h.apply_undo⟩
  intro i e he
  exact h.exists_start_apply he

/-- Edits at both ends of a text, one of them in front of nothing, one without a text, and two that
touch. -/
theorem apply_inOrder_both_ends :
    let s := "abcdef".toList
    let edits : List Edit :=
      [⟨0, 0, "x".toList⟩, ⟨0, 2, []⟩, ⟨2, 3, "yz".toList⟩, ⟨6, 6, "w".toList⟩]
    InOrder s edits ∧ apply s edits = "xyzdefw".toList
      ∧ undo s edits
        = [⟨0, 1, []⟩, ⟨1, 1, "ab".toList⟩, ⟨1, 3, "c".toList⟩, ⟨6, 7, []⟩]
      ∧ apply (apply s edits) (undo s edits) = s := by
  intro s edits
  have h : InOrder s edits := ⟨by decide, by decide⟩
  exact ⟨h, by decide, by decide, (apply_inOrder s edits h).2.2.2.2.2⟩

end Edit

namespace Document

variable [Elementary]

/-- The replacements of a conversion are edits in order. -/
lemma inOrder_replacements (settings : Settings) (s : Text) :
    Edit.InOrder s ((replacements settings s).value.map Replacement.edit) := by
  have hscan : IsScan s (Token.scan s) := isScan_iff_isScanFrom.mpr (isScanFrom_iff.mpr rfl)
  rw [value_replacements, List.map_map]
  constructor
  · intro e he
    obtain ⟨t, ht, rfl⟩ := List.mem_map.mp he
    obtain ⟨hlt, hle⟩ := hscan.bounds t ht
    exact ⟨Int.natCast_nonneg _, Int.ofNat_le.mpr hlt.le, Int.ofNat_le.mpr hle⟩
  · refine List.isChain_map_of_isChain _ ?_ hscan.ordered.isChain
    intro t u htu
    exact Int.ofNat_le.mpr htu.2

/-- **A converted document can be restored**: with the literals put back in the places of their
replacements it is the original. -/
theorem restore_convert (settings : Settings) (s : Text) :
    Edit.apply (convert settings s).value
      (Edit.undo s ((replacements settings s).value.map Replacement.edit)) = s := by
  rw [value_convert, value_rewrite_eq_weave, ← apply_replacements]
  exact (inOrder_replacements settings s).apply_undo

end Document

end Swatch
