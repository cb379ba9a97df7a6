import Swatch.Proofs.Document.Gaps
import Swatch.Proofs.Form.Search
/-!
Searching a text again after other literals were put in place of its literals.

The second search meets what the literals of the first have become, if nothing comes to begin
where nothing began, and what was put in place ends where it was put.  A function that is put in
place brings a closing parenthesis with it, and that could close an opening one that stood there
before.  So the text has to be closed already: behind every opening parenthesis there has to be a
closing one.

* `Text.Closed`: behind every opening parenthesis there is a closing one.
* `Literal.IsProper`, `Literal.IsPlaced`: what may stand in the place of a literal.
* `Document.substitute`: a text with its literals replaced by what they become.
* `Document.value_convert_name`: a converted document is such a text.
* `Document.takeWhile_substitute`: a run that holds no head of a literal is kept.
* `Document.exists_of_substitute_eq`: an opening parenthesis behind the end of a keyword was there
  before.
* `Document.atHead?_substitute`: no literal comes to begin where none began, unless a closing
  parenthesis was put in place.
* `Document.Rescans`: step by step, the second search meets what the first has met.
* `Document.Rescans.scan_eq`, `Document.Rescans.rewrite_eq`: the tokens of the second search, and
  rewriting after substitution.
* `Document.rescans_of_closed`: the second search in a closed text in which functions were put.
* `Document.scan_substitute`, `Document.rewrite_substitute`: what follows for such a text.
-/

namespace Swatch

/-- Behind every opening parenthesis there is a closing one. -/
def Text.Closed (s : Text) : Prop := ∀ rest, '(' :: rest <:+ s → ')' ∈ rest

lemma Text.Closed.of_append {s t : Text} (h : Text.Closed (s ++ t)) : Text.Closed t :=
  fun rest hrest => h rest (hrest.trans (List.suffix_append s t))

instance (s : Text) : Decidable (Text.Closed s) :=
  decidable_of_iff (∀ t ∈ s.tails, t.head? = some '(' → ')' ∈ t.tail) <| by
    constructor
    · intro h rest hrest
      exact h ('(' :: rest) ((List.mem_tails _ _).mpr hrest) rfl
    · intro h t ht hhead
      obtain ⟨rest, rfl⟩ := List.head?_eq_some_iff.mp hhead
      exact h rest ((List.mem_tails _ _).mp ht)

/-- The text of a literal is one of its form, in front of some other text. -/
def Literal.IsProper (l : Literal) : Prop := ∃ rest, IsLiteral rest l.form l.text

/-- A literal is kept, or a function is put in its place. -/
def Literal.IsPlaced (l l' : Literal) : Prop :=
  l' = l ∨ l'.form ≠ .hex ∧ IsLiteral [] l'.form l'.text

/-- What stands in the place of a literal is a literal too. -/
lemma Literal.IsPlaced.isProper {l l' : Literal} (h : l.IsPlaced l') (hl : l.IsProper) :
    l'.IsProper := by
  rcases h with rfl | ⟨-, hfunction⟩
  · exact hl
  · exact ⟨[], hfunction⟩

/-! ### The head of a literal -/

/-- The characters with which a literal can begin: the number sign and the first letters of the
keywords. -/
def literalHeads : Text := "#hHrRoO".toList

/-- No literal begins with a hexadecimal digit. -/
lemma isHexDigit_of_mem_literalHeads : ∀ c ∈ literalHeads, isHexDigit c = false := by
  decide

lemma IsLiteral.exists_cons {rest text : Text} {form : Form} (h : IsLiteral rest form text) :
    ∃ c tail, text = c :: tail ∧ c ∈ literalHeads := by
  cases h with
  | hex => exact ⟨_, _, rfl, by decide⟩
  | @function _ word name argument hword hname =>
      obtain ⟨c, tail, rfl⟩ := List.exists_cons_of_ne_nil (hname.ne_nil hword)
      refine ⟨c, _, rfl, ?_⟩
      have hfirst : ∀ w ∈ form.keywords.flatMap (·.take 1),
          w ∈ literalHeads ∧ w.toUpper ∈ literalHeads ∧ w ≠ 's' ∧ w ≠ 'k' := by
        cases form <;> decide
      cases hname with
      | @cons w _ word _ hc _ =>
          obtain ⟨hw, hw', hs, hk⟩ := hfirst w (List.mem_flatMap.mpr ⟨_, hword, by simp⟩)
          rcases hc with rfl | rfl | ⟨rfl, -⟩ | ⟨rfl, -⟩
          · exact hw
          · exact hw'
          · exact absurd rfl hs
          · exact absurd rfl hk

/-- A literal ends a run that holds no head of a literal. -/
lemma IsLiteral.stops {rest text : Text} {form : Form} (h : IsLiteral rest form text)
    {p : Char → Bool} (hp : ∀ c ∈ literalHeads, p c = false) (t : Text) :
    Text.Stops p (text ++ t) := by
  obtain ⟨c, tail, rfl, hc⟩ := h.exists_cons
  exact Text.stops_cons.mpr (hp c hc)

lemma Literal.atHead?_of_notMem {c : Char} (hc : c ∉ literalHeads) (s : Text) :
    Literal.atHead? (c :: s) = none := by
  by_contra hne
  obtain ⟨l, hl⟩ := Option.ne_none_iff_exists'.mp hne
  obtain ⟨rest, hs, h⟩ := Literal.atHead?_eq_some_iff.mp hl
  obtain ⟨d, tail, htext, hd⟩ := h.exists_cons
  rw [htext, List.cons_append, List.cons.injEq] at hs
  rw [hs.1] at hc
  exact hc hd

/-- No literal begins with what spells the end of a keyword and an opening parenthesis, because no
keyword ends with another one. -/
lemma IsLiteral.ne_append_of_tail {rest text : Text} {form form' : Form}
    (h : IsLiteral rest form' text) {front part name tail rest' : Text}
    (hword : front ++ part ∈ form.keywords) (hfront : front ≠ []) (hname : Spells part name) :
    text ++ rest' ≠ name ++ '(' :: tail := by
  intro heq
  have hlow : ∀ w ∈ part, IsLowerLetter w := fun w hw =>
    Form.isLowerLetter_of_mem_keywords hword w (List.mem_append_right front hw)
  have hnot {c : Char} (hc : ¬ IsLowerLetter (foldLetter c)) : c ∉ name :=
    hname.notMem_of_letters hlow hc
  cases h with
  | hex =>
      cases name with
      | nil => exact absurd (List.cons.inj heq).1 (by decide)
      | cons d name =>
          obtain ⟨rfl, -⟩ := List.cons.inj heq
          exact absurd List.mem_cons_self (hnot (by decide))
  | @function _ word name' argument hword' hname' =>
      have hopen : ¬ IsLowerLetter (foldLetter '(') := by decide
      rw [List.append_assoc] at heq
      obtain ⟨rfl, -⟩ := Text.append_cons_inj (hname'.notMem hword' hopen) (hnot hopen) heq
      have hsame : word = part := by
        rw [← hname'.map_foldLetter (Form.isLowerLetter_of_mem_keywords hword'),
          hname.map_foldLetter hlow]
      rw [hsame] at hword'
      have hwhole := Form.keywords_suffix part hword' _ hword (List.suffix_append front part)
      exact absurd (List.self_eq_append_left.mp hwhole) hfront

namespace Document

/-! ### Substitution -/

/-- A text with its literals replaced by what they become. -/
def substitute (become : Literal → Literal) (s : Text) : Text :=
  (rewrite (fun l => pure (become l).text) s).value

/-- A converted document is the document with each literal replaced by what it becomes. -/
lemma value_convert_name [Elementary] (target : Form) (s : Text) :
    (convert ⟨target.name, true⟩ s).value = substitute (Literal.converted target) s := by
  rw [value_convert, substitute]
  refine value_rewrite_congr 0 fun t _ => ?_
  rw [Reported.value_pure, Literal.text_converted]

section Substitute

variable {become : Literal → Literal}

@[simp] lemma substitute_nil : substitute become [] = [] := by rw [substitute, rewrite_nil]; rfl

lemma substitute_append {rest : Text} {l : Literal} (h : IsLiteral rest l.form l.text) :
    substitute become (l.text ++ rest) = (become l).text ++ substitute become rest :=
  value_rewrite_append _ h

lemma substitute_cons {c : Char} {s : Text} (h : Literal.atHead? (c :: s) = none) :
    substitute become (c :: s) = c :: substitute become s :=
  value_rewrite_cons _ h

/-- A run that holds no head of a literal is kept. -/
lemma takeWhile_substitute {p : Char → Bool} (hp : ∀ c ∈ literalHeads, p c = false) {start : Nat}
    {s : Text} (h : ∀ t ∈ Token.scanFrom start s, (become t.toLiteral).IsProper) :
    (substitute become s).takeWhile p = s.takeWhile p := by
  induction s using Literal.scanInduction generalizing start with
  | nil => simp
  | literal l rest hl ih =>
      rw [Token.scanFrom_append hl, List.forall_mem_cons] at h
      obtain ⟨rest', hl'⟩ := h.1
      rw [substitute_append hl, Text.takeWhile_eq_nil_iff.mpr (hl.stops hp rest),
        Text.takeWhile_eq_nil_iff.mpr (hl'.stops hp _)]
  | skip c s hnone ih =>
      rw [Token.scanFrom_cons hnone] at h
      rw [substitute_cons hnone, List.takeWhile_cons, List.takeWhile_cons, ih h]

/-- A hexadecimal digit comes first in the substituted text just if it did before. -/
lemma stops_substitute {start : Nat} {s : Text}
    (h : ∀ t ∈ Token.scanFrom start s, (become t.toLiteral).IsProper) :
    Text.Stops isHexDigit (substitute become s) ↔ Text.Stops isHexDigit s := by
  rw [← Text.takeWhile_eq_nil_iff, takeWhile_substitute isHexDigit_of_mem_literalHeads h,
    Text.takeWhile_eq_nil_iff]

/-- What is put in front of a text may be put in front of the substituted text. -/
lemma isLiteral_substitute {rest text : Text} {form : Form} {start : Nat}
    (hl : IsLiteral rest form text)
    (h : ∀ t ∈ Token.scanFrom start rest, (become t.toLiteral).IsProper) :
    IsLiteral (substitute become rest) form text := by
  cases hl with
  | function hword hname hargument hclose => exact .function hword hname hargument hclose
  | hex hmin hmax hdigits hstop =>
      exact .hex hmin hmax hdigits (hstop.imp_right (stops_substitute h).mpr)

/-- A hexadecimal literal stands in the substituted text where it stood before. -/
lemma hexLength?_substitute {start : Nat} {s : Text}
    (h : ∀ t ∈ Token.scanFrom start s, (become t.toLiteral).IsProper) :
    Literal.hexLength? ('#' :: substitute become s) = Literal.hexLength? ('#' :: s) := by
  simp only [Literal.hexLength?, takeWhile_substitute isHexDigit_of_mem_literalHeads h]

/-- An opening parenthesis behind the end of a keyword was there before. -/
lemma exists_of_substitute_eq {form : Form} {front part name tail : Text} {start : Nat} {s : Text}
    (hword : front ++ part ∈ form.keywords) (hfront : front ≠ []) (hname : Spells part name)
    (h : ∀ t ∈ Token.scanFrom start s, (become t.toLiteral).IsProper)
    (heq : substitute become s = name ++ '(' :: tail) :
    ∃ s', s = name ++ '(' :: s' ∧ substitute become s' = tail := by
  induction s using Literal.scanInduction generalizing start front part name with
  | nil => exact absurd heq (by simp)
  | literal l rest hl ih =>
      -- a function that was put there would begin with the end of the keyword
      rw [Token.scanFrom_append hl, List.forall_mem_cons] at h
      obtain ⟨rest', hl'⟩ := h.1
      rw [substitute_append hl] at heq
      exact absurd heq (hl'.ne_append_of_tail hword hfront hname)
  | skip c s hnone ih =>
      rw [Token.scanFrom_cons hnone] at h
      rw [substitute_cons hnone] at heq
      cases hname with
      | nil =>
          obtain ⟨rfl, htail⟩ := List.cons.inj heq
          exact ⟨s, rfl, htail⟩
      | @cons w d part name hc hname =>
          rw [List.cons_append, List.cons.injEq] at heq
          obtain ⟨rfl, heq⟩ := heq
          have hword' : (front ++ [w]) ++ part ∈ form.keywords := by simpa using hword
          obtain ⟨s', rfl, htail⟩ := ih hword' (by simp) hname h heq
          exact ⟨s', rfl, htail⟩

/-- An argument that holds something held something before. -/
lemma exists_argument_of_substitute_eq {argument rest s : Text} (hne : argument ≠ [])
    (hclose : ')' ∉ argument) (hmem : ')' ∈ s)
    (heq : substitute become s = argument ++ ')' :: rest) :
    ∃ argument' rest', argument' ≠ [] ∧ ')' ∉ argument' ∧ s = argument' ++ ')' :: rest' := by
  obtain ⟨argument', rest', rfl, hclose'⟩ := List.eq_append_cons_of_mem hmem
  refine ⟨argument', rest', ?_, hclose', rfl⟩
  rintro rfl
  have hstop : Literal.atHead? (')' :: rest') = none :=
    Literal.atHead?_of_notMem (by decide) rest'
  obtain ⟨a, argument, rfl⟩ := List.exists_cons_of_ne_nil hne
  rw [List.nil_append, substitute_cons hstop, List.cons_append, List.cons.injEq] at heq
  rw [heq.1] at hclose
  exact hclose List.mem_cons_self

/-- No literal comes to begin where none began, if behind an opening parenthesis there is a closing
one only where there was one before. -/
lemma atHead?_substitute {start : Nat} {c : Char} {s : Text}
    (hnone : Literal.atHead? (c :: s) = none)
    (hclosed : ∀ rest, '(' :: rest <:+ c :: s → ')' ∈ substitute become rest → ')' ∈ rest)
    (h : ∀ t ∈ Token.scanFrom start s, (become t.toLiteral).IsProper) :
    Literal.atHead? (c :: substitute become s) = none := by
  have hno {form : Form} {text rest : Text} (hl : IsLiteral rest form text) :
      c :: s ≠ text ++ rest := by
    intro hs
    rw [hs, Literal.atHead?_append hl] at hnone
    exact absurd hnone (by simp)
  by_contra hne
  obtain ⟨⟨form, text⟩, hl⟩ := Option.ne_none_iff_exists'.mp hne
  obtain ⟨rest, heq, hl'⟩ := Literal.atHead?_eq_some_iff.mp hl
  cases hl' with
  | @hex digits hmin hmax hdigits hstop =>
      obtain ⟨rfl, -⟩ := List.cons.inj heq
      have hlength := Literal.hexLength?_eq_some_iff.mpr
        ⟨digits, rest, hmin, hmax, hdigits, hstop, heq, rfl⟩
      rw [hexLength?_substitute h] at hlength
      obtain ⟨digits', rest', hmin', hmax', hdigits', hstop', hs, -⟩ :=
        Literal.hexLength?_eq_some_iff.mp hlength
      exact hno (.hex hmin' hmax' hdigits' hstop') hs
  | @function _ word name argument hword hname hargument hclose =>
      cases hname with
      | nil => exact absurd rfl (Form.ne_nil_of_mem_keywords hword)
      | @cons w d part name hd hname =>
          have hdivided : c :: substitute become s
              = (d :: name) ++ '(' :: (argument ++ [')'] ++ rest) :=
            heq.trans (List.append_assoc (d :: name) ('(' :: (argument ++ [')'])) rest)
          rw [List.cons_append, List.cons.injEq, List.append_assoc] at hdivided
          obtain ⟨rfl, hdivided⟩ := hdivided
          have hwhole : [w] ++ part ∈ form.keywords := hword
          obtain ⟨s', rfl, hs'⟩ := exists_of_substitute_eq hwhole (by simp) hname h hdivided
          have hmem : ')' ∈ s' :=
            hclosed s' (List.suffix_append (c :: name) _) (by rw [hs']; simp)
          obtain ⟨argument', rest', hargument', hclose', rfl⟩ :=
            exists_argument_of_substitute_eq hargument hclose hmem hs'
          have hliteral : IsLiteral rest' form (c :: name ++ '(' :: (argument' ++ [')'])) :=
            .function hword (.cons hd hname) hargument' hclose'
          exact hno hliteral (by simp)

end Substitute

/-! ### The second search -/

/-- A second search in the substituted text meets what the first has met: what a literal has become
where it stood, and nothing where there was nothing. -/
inductive Rescans (become : Literal → Literal) : Text → Prop where
  | nil : Rescans become []
  | literal {l : Literal} {rest : Text} (hl : IsLiteral rest l.form l.text)
      (hbecome : IsLiteral (substitute become rest) (become l).form (become l).text)
      (hrest : Rescans become rest) : Rescans become (l.text ++ rest)
  | skip {c : Char} {s : Text} (hnone : Literal.atHead? (c :: s) = none)
      (hbecome : Literal.atHead? (c :: substitute become s) = none) (hrest : Rescans become s) :
      Rescans become (c :: s)

namespace Rescans

variable {become : Literal → Literal} {s : Text}

/-- The tokens of the second search are what those of the first have become. -/
theorem scan_eq (h : Rescans become s) (start start' : Nat) :
    (Token.scanFrom start' (substitute become s)).map Token.toLiteral
      = (Token.scanFrom start s).map fun t => become t.toLiteral := by
  induction h generalizing start start' with
  | nil => rw [substitute_nil, Token.scanFrom, Token.scanFrom]; rfl
  | literal hl hbecome hrest ih =>
      rw [substitute_append hl, Token.scanFrom_append hbecome, Token.scanFrom_append hl,
        List.map_cons, List.map_cons, ih]
  | skip hnone hbecome hrest ih =>
      rw [substitute_cons hnone, Token.scanFrom_cons hbecome, Token.scanFrom_cons hnone, ih]

/-- Rewriting a text after substitution rewrites what its literals have become, and reports the
same. -/
theorem rewrite_eq (h : Rescans become s) (replace : Literal → Reported Text) :
    rewrite replace (substitute become s) = rewrite (fun l => replace (become l)) s := by
  induction h with
  | nil => rw [substitute_nil, rewrite_nil, rewrite_nil]
  | literal hl hbecome hrest ih =>
      rw [substitute_append hl, rewrite_append replace hbecome, ih, rewrite_append _ hl]
  | skip hnone hbecome hrest ih =>
      rw [substitute_cons hnone, rewrite_cons replace hbecome, ih, rewrite_cons _ hnone]

end Rescans

variable (become : Literal → Literal) {s : Text}

/-- What stands in the places of the tokens of a text are literals. -/
lemma isProper_of_isPlaced {start : Nat}
    (h : ∀ t ∈ Token.scanFrom start s, t.toLiteral.IsPlaced (become t.toLiteral)) :
    ∀ t ∈ Token.scanFrom start s, (become t.toLiteral).IsProper :=
  fun t ht => (h t ht).isProper (Token.isLiteral_of_mem_scanFrom ht)

/-- Where every opening parenthesis is followed by a closing one, functions may be put in the place
of literals. -/
theorem rescans_of_closed {start : Nat} (hclosed : Text.Closed s)
    (h : ∀ t ∈ Token.scanFrom start s, t.toLiteral.IsPlaced (become t.toLiteral)) :
    Rescans become s := by
  induction s using Literal.scanInduction generalizing start with
  | nil => exact .nil
  | literal l rest hl ih =>
      rw [Token.scanFrom_append hl, List.forall_mem_cons] at h
      refine .literal hl ?_ (ih hclosed.of_append h.2)
      rcases h.1 with heq | ⟨hform, hfunction⟩
      · simp only at heq
        rw [heq]
        exact isLiteral_substitute hl (isProper_of_isPlaced become h.2)
      · exact hfunction.of_function hform
  | skip c s hnone ih =>
      rw [Token.scanFrom_cons hnone] at h
      have hclosed' : Text.Closed s := Text.Closed.of_append (s := [c]) hclosed
      refine .skip hnone ?_ (ih hclosed' h)
      exact atHead?_substitute hnone (fun rest hrest _ => hclosed rest hrest)
        (isProper_of_isPlaced become h)

/-- The second search in a closed text meets the same literals as the first, each as what it has
become. -/
theorem scan_substitute {start : Nat} (start' : Nat) (hclosed : Text.Closed s)
    (h : ∀ t ∈ Token.scanFrom start s, t.toLiteral.IsPlaced (become t.toLiteral)) :
    (Token.scanFrom start' (substitute become s)).map Token.toLiteral
      = (Token.scanFrom start s).map fun t => become t.toLiteral :=
  (rescans_of_closed become hclosed h).scan_eq start start'

/-- Rewriting a closed text after substitution rewrites what its literals have become. -/
theorem rewrite_substitute (replace : Literal → Reported Text) {start : Nat}
    (hclosed : Text.Closed s)
    (h : ∀ t ∈ Token.scanFrom start s, t.toLiteral.IsPlaced (become t.toLiteral)) :
    rewrite replace (substitute become s) = rewrite (fun l => replace (become l)) s :=
  (rescans_of_closed become hclosed h).rewrite_eq replace

end Document

end Swatch
