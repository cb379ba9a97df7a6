import Swatch.Proofs.Form.Search
import Swatch.Proofs.Literal.Scan
/-!
Which part of a literal is read.

A function is searched for in the text of a literal.  That text has one closing parenthesis, at its
end, so that what is found ends the text; it need not begin it, since the argument of a literal may
hold the opening of another function.

* `Literal.readText`: the text in which a colour is searched for.
* `IsLiteral.readText_eq`: it is the text of the literal in lower case, with nothing trimmed off.
* `Literal.outcome_suffix`: a literal that ends with a function has the outcome of that function.
* `Token.outcome_iff_of_mem_scan`: a token of a function form converts just if it ends with a
  function that converts, and is one function just if it has one opening parenthesis.
-/

namespace Swatch

/-- The text of a literal as it is read: in lower case and without blanks around it. -/
def Literal.readText (l : Literal) : Text := Text.trim isBlank (Text.lower l.text)

lemma Literal.sample_eq [Elementary] (l : Literal) : l.sample = l.form.read l.readText := rfl

/-- Of a literal the outcome depends on the colour alone. -/
lemma Literal.outcome_congr [Elementary] {l l' : Literal} (h : l.sample = l'.sample) (target : Form)
    (functional : Bool) : l.outcome target functional = l'.outcome target functional := by
  rw [Literal.outcome, Literal.outcome, h]

/-! ### The text that is read -/

/-- The name of a function begins with no blank, in lower case either. -/
lemma stops_isBlank_lower {form : Form} {word name tail : Text} (hword : word ∈ form.keywords)
    (hname : Spells word name) : Text.Stops isBlank (Text.lower name ++ tail) := by
  obtain ⟨c, rest, rfl⟩ := List.exists_cons_of_ne_nil (hname.ne_nil hword)
  have hlow := Form.isLowerLetter_of_mem_keywords hword
  have hc : IsLowerLetter (foldLetter c) := by
    refine hlow _ ?_
    rw [← hname.map_foldLetter hlow]
    exact List.mem_cons_self
  refine Text.stops_cons.mpr ?_
  rcases lowerLetter_eq_or (c := c) with h | h
  · obtain ⟨h1, h2⟩ := hc
    rw [h, Bool.eq_false_iff, ne_eq, Parts.isBlank_iff]
    omega
  · rw [h]
    decide

/-- Trimming takes nothing off a function. -/
lemma IsLiteral.readText_eq {rest : Text} {l : Literal} (h : IsLiteral rest l.form l.text)
    (hform : l.form ≠ .hex) : l.readText = Text.lower l.text := by
  obtain ⟨word, name, argument, hword, hname, -, -, htext⟩ := h.eq_function hform
  rw [Literal.readText, htext]
  refine Text.trim_eq_self ?_ ?_
  · rw [Text.lower, List.map_append]
    exact stops_isBlank_lower hword hname
  · rw [← List.cons_append, ← List.append_assoc, Text.lower, List.map_append, List.reverse_append]
    exact Text.stops_cons.mpr (by decide)

/-- What is read of a function has its parentheses where the function has them. -/
lemma IsLiteral.readText_shape {rest : Text} {l : Literal} (h : IsLiteral rest l.form l.text)
    (hform : l.form ≠ .hex) : ∃ name argument, name.map foldLetter ∈ l.form.keywords ∧
      '(' ∉ name ∧ ')' ∉ name ++ '(' :: argument ∧
      l.readText = name ++ '(' :: argument ++ [')'] := by
  obtain ⟨word, name, argument, hword, hname, -, hclose, htext⟩ := h.eq_function hform
  have hlower (s t : Text) : Text.lower (s ++ t) = Text.lower s ++ Text.lower t := List.map_append
  have hfold : (Text.lower name).map foldLetter = word := by
    rw [← hname.map_foldLetter (Form.isLowerLetter_of_mem_keywords hword)]
    simp [Text.lower]
  have hopen : '(' ∉ Text.lower name := by
    rw [Text.mem_lower_iff (by decide)]
    exact hname.notMem hword (by decide)
  have hbody : ')' ∉ Text.lower (name ++ '(' :: argument) := by
    rw [Text.mem_lower_iff (by decide)]
    simp [hname.notMem hword (c := ')') (by decide), hclose]
  rw [hlower] at hbody
  refine ⟨Text.lower name, Text.lower argument, hfold ▸ hword, hopen, hbody, ?_⟩
  rw [h.readText_eq hform, htext, ← List.cons_append, ← List.append_assoc, hlower, hlower]
  rfl

/-- A function is a literal, whatever follows it. -/
lemma Form.IsFunction.isLiteral {form : Form} {c : Components} {text : Text}
    (h : form.IsFunction c text) (rest : Text) : IsLiteral rest form text := by
  obtain ⟨name, argument, hname, hne, -, hclose, htext⟩ := h.shape
  have hspells : Spells name name := by
    rw [Spells, List.forall₂_same]
    exact fun c _ => Or.inl rfl
  rw [htext]
  exact .function hname hspells hne hclose

lemma Form.IsFunction.form_ne_hex {form : Form} {c : Components} {text : Text}
    (h : form.IsFunction c text) : form ≠ .hex := by
  rintro rfl
  exact h

/-- A function is read as it is. -/
lemma Form.IsFunction.readText_eq {form : Form} {c : Components} {text : Text}
    (h : form.IsFunction c text) : (Literal.mk form text).readText = text := by
  have hread := IsLiteral.readText_eq (l := ⟨form, text⟩) (h.isLiteral []) h.form_ne_hex
  rw [hread, h.lower_eq]

/-! ### The function at the end -/

/-- A function ends with its closing parenthesis, and holds no other. -/
lemma Form.IsFunction.eq_append {form : Form} {c : Components} {text : Text}
    (h : form.IsFunction c text) : ∃ body, ')' ∉ body ∧ text = body ++ [')'] := by
  obtain ⟨name, argument, hname, -, -, hclose, rfl⟩ := h.shape
  have hletter : ∀ w ∈ name, IsLowerLetter w := Form.isLowerLetter_of_mem_keywords hname
  have hname' : ')' ∉ name := fun hmem => absurd (hletter _ hmem) (by decide)
  exact ⟨name ++ '(' :: argument, by simp [hname', hclose], by simp⟩

/-- Where one closing parenthesis stands, at the end, the search finds a function that ends
there. -/
lemma rest_eq_nil_of_leftmost? {form : Form} {c : Components} {body rest : Text}
    (hbody : ')' ∉ body)
    (h : Components.leftmost? form.components? (body ++ [')']) = some (c, rest)) :
    rest = [] ∧ ∃ front text, form.IsFunction c text ∧ body ++ [')'] = front ++ text := by
  obtain ⟨front, text, htext, heq⟩ := leftmost?_eq_some h
  obtain ⟨body', -, rfl⟩ := htext.eq_append
  rcases List.eq_nil_or_concat rest with rfl | ⟨init, d, rfl⟩
  · rw [List.append_nil] at heq
    exact ⟨rfl, front, _, htext, heq⟩
  · -- the parenthesis of what was found would not be the last character
    have hlast : body ++ [')'] = front ++ (body' ++ ')' :: init) ++ [d] := by simpa using heq
    have hinit := (List.append_inj' hlast rfl).1
    rw [hinit] at hbody
    simp at hbody

lemma leftmost?_of_suffix {form : Form} {c : Components} {front text body : Text}
    (h : form.IsFunction c text) (hbody : ')' ∉ body) (heq : front ++ text = body ++ [')']) :
    Components.leftmost? form.components? (front ++ text) = some (c, []) := by
  have hne : Components.leftmost? form.components? (front ++ (text ++ [])) ≠ none :=
    leftmost?_ne_none h
  obtain ⟨⟨c', rest⟩, hfound⟩ := Option.ne_none_iff_exists'.mp hne
  rw [List.append_nil, heq] at hfound
  obtain ⟨rfl, front', text', h', heq'⟩ := rest_eq_nil_of_leftmost? hbody hfound
  rw [← heq] at heq'
  obtain ⟨-, -, rfl⟩ := h.unique_suffix h' heq'
  rw [heq, hfound]

/-- In the text of a function the search finds that function. -/
lemma Form.IsFunction.leftmost?_eq {form : Form} {c : Components} {text : Text}
    (h : form.IsFunction c text) :
    Components.leftmost? form.components? text = some (c, []) := by
  obtain ⟨body, hbody, htext⟩ := h.eq_append
  have hfound : Components.leftmost? form.components? ([] ++ text) = some (c, []) :=
    leftmost?_of_suffix h hbody htext
  rwa [List.nil_append] at hfound

/-- A literal that ends with a function has the outcome of that function. -/
lemma Literal.outcome_suffix [Elementary] {l : Literal} {rest front text : Text} {c : Components}
    (hl : IsLiteral rest l.form l.text) (hform : l.form ≠ .hex)
    (hread : l.readText = front ++ text) (h : l.form.IsFunction c text) (target : Form)
    (functional : Bool) :
    l.outcome target functional = (Literal.mk l.form text).outcome target functional := by
  obtain ⟨name, argument, -, -, hbody, hshape⟩ := hl.readText_shape hform
  have hwhole := leftmost?_of_suffix h hbody (hread.symm.trans hshape)
  refine Literal.outcome_congr ?_ target functional
  rw [Literal.sample_eq, Literal.sample_eq, h.readText_eq, hread]
  exact Form.read_congr hform hwhole h.leftmost?_eq

/-- A literal that does not end with a function is no colour. -/
lemma Literal.outcome_of_no_suffix [Elementary] {l : Literal} {rest : Text}
    (hl : IsLiteral rest l.form l.text) (hform : l.form ≠ .hex)
    (h : ∀ front text c, l.readText = front ++ text → ¬ l.form.IsFunction c text) (target : Form)
    (functional : Bool) : l.outcome target functional = .ok none := by
  obtain ⟨name, argument, -, -, hbody, hshape⟩ := hl.readText_shape hform
  have hnone : Components.leftmost? l.form.components? l.readText = none := by
    by_contra hne
    obtain ⟨⟨c, rest⟩, hfound⟩ := Option.ne_none_iff_exists'.mp hne
    rw [hshape] at hfound
    obtain ⟨-, front, text, htext, heq⟩ := rest_eq_nil_of_leftmost? hbody hfound
    exact h front text c (hshape.trans heq) htext
  have hsample : l.sample = .ok none := Form.read_of_none hform hnone
  rw [Literal.outcome, hsample]
  rfl

/-- A literal that ends with a function is one function just if it has one opening
parenthesis. -/
lemma IsLiteral.isFunction_iff {l : Literal} {rest front text : Text} {c : Components}
    (hl : IsLiteral rest l.form l.text) (hform : l.form ≠ .hex)
    (hread : l.readText = front ++ text) (h : l.form.IsFunction c text) :
    (∃ c, l.form.IsFunction c l.readText) ↔ l.text.count '(' = 1 := by
  have hcount : l.readText.count '(' = l.text.count '(' := by
    rw [hl.readText_eq hform, Text.count_lower (by decide)]
  constructor
  · rintro ⟨c', h'⟩
    obtain ⟨name, argument, hname, -, hopen, -, htext⟩ := h'.shape
    have hletter : ∀ w ∈ name, IsLowerLetter w := Form.isLowerLetter_of_mem_keywords hname
    have hname' : '(' ∉ name := fun hmem => absurd (hletter _ hmem) (by decide)
    rw [← hcount, htext]
    simp [List.count_eq_zero.mpr hname', List.count_eq_zero.mpr hopen]
  · intro hone
    obtain ⟨name, argument, hname, hopen, -, hshape⟩ := hl.readText_shape hform
    obtain ⟨name', argument', hname', -, hopen', -, htext⟩ := h.shape
    -- the one parenthesis is that of the function, so what stands in front of it are names
    have hfront : '(' ∉ argument := by
      rw [← hcount, hshape] at hone
      simp only [List.count_append, List.count_cons_self, List.append_assoc, List.cons_append,
        List.count_eq_zero.mpr hopen] at hone
      exact List.count_eq_zero.mp (by omega)
    have heq : name ++ '(' :: (argument ++ [')'])
        = front ++ name' ++ '(' :: (argument' ++ [')']) := by
      rw [hshape, htext] at hread
      simpa using hread
    obtain ⟨hnames, -⟩ := Text.append_cons_inj_right (by simp [hfront]) (by simp [hopen']) heq
    have hself : name'.map foldLetter = name' := by
      refine (List.map_congr_left fun w hw => ?_).trans (List.map_id name')
      exact foldLetter_of_isLowerLetter (Form.isLowerLetter_of_mem_keywords hname' w hw)
    have hsuffix : ([] : Text) ++ name.map foldLetter = front.map foldLetter ++ name' := by
      rw [hnames, List.map_append, hself]
      rfl
    obtain ⟨hnil, -⟩ := Form.keywords_suffix_unique hname hname' hsuffix
    have hfront' : front = [] := List.map_eq_nil_iff.mp hnil.symm
    rw [hread, hfront']
    exact ⟨c, h⟩

/-! ### Tokens -/

lemma Token.isLiteral_of_mem_scan {s : Text} {t : Token} (ht : t ∈ Token.scan s) :
    ∃ rest, IsLiteral rest t.form t.text :=
  Token.isLiteral_of_mem_scanFrom ht

/-- **What a converted token holds**: a token of a function form converts just if its text in lower
case ends with a function of the form that converts, and to the same text.  The whole token is one
function just if it has one opening parenthesis: whatever stands in front of the last one is
passed over. -/
theorem Token.outcome_iff_of_mem_scan [Elementary] {s : Text} {t : Token} (ht : t ∈ Token.scan s)
    (hform : t.form ≠ .hex) (target : Form) (functional : Bool) (r : Text) :
    (t.toLiteral.outcome target functional = .ok (some r) ↔
      ∃ front text c, t.toLiteral.readText = front ++ text ∧ t.form.IsFunction c text ∧
        (Literal.mk t.form text).outcome target functional = .ok (some r)) ∧
    (t.toLiteral.outcome target functional = .ok (some r) →
      ((∃ c, t.form.IsFunction c t.toLiteral.readText) ↔ t.text.count '(' = 1)) := by
  obtain ⟨rest, hl⟩ := Token.isLiteral_of_mem_scan ht
  have hends : t.toLiteral.outcome target functional = .ok (some r) →
      ∃ front text c, t.toLiteral.readText = front ++ text ∧ t.form.IsFunction c text := by
    intro hr
    by_contra hnone
    have := Literal.outcome_of_no_suffix hl hform
      (fun front text c hread h => hnone ⟨front, text, c, hread, h⟩) target functional
    rw [hr] at this
    exact absurd this (by simp)
  refine ⟨⟨fun hr => ?_, ?_⟩, fun hr => ?_⟩
  · obtain ⟨front, text, c, hread, h⟩ := hends hr
    rw [Literal.outcome_suffix hl hform hread h] at hr
    exact ⟨front, text, c, hread, h, hr⟩
  · rintro ⟨front, text, c, hread, h, hr⟩
    rw [Literal.outcome_suffix hl hform hread h]
    exact hr
  · obtain ⟨front, text, c, hread, h⟩ := hends hr
    exact hl.isFunction_iff hform hread h

/-- A function that is opened inside the argument of another one. -/
def nestedFunction : Text := "rgb(from rgb(1, 2, 3)".toList

/-- The inner function is converted in place of the outer one, which is no colour. -/
theorem nestedFunction_converts :
    ⟨⟨.rgb, nestedFunction⟩, 0⟩ ∈ Token.scan nestedFunction ∧
      (Literal.mk .rgb nestedFunction).outcome .hex true = .ok (some "#010203".toList) ∧
      ¬ ∃ c, Form.rgb.IsFunction c (Literal.mk .rgb nestedFunction).readText := by
  refine ⟨by decide +kernel, by decide +kernel, ?_⟩
  rintro ⟨c, h⟩
  have hfound := Form.components?_iff.mpr ⟨_, h, (List.append_nil _).symm⟩
  have hnone : Form.rgb.components? (Literal.mk .rgb nestedFunction).readText = none := by
    decide +kernel
  rw [hnone] at hfound
  exact absurd hfound (by simp)

/-- A token that is opened twice converts by what it ends with. -/
theorem outcome_nestedFunction :
    ⟨⟨.rgb, nestedFunction⟩, 0⟩ ∈ Token.scan nestedFunction ∧ Form.rgb ≠ .hex ∧
      (∃ front text c, (Literal.mk .rgb nestedFunction).readText = front ++ text ∧
        Form.rgb.IsFunction c text ∧
        (Literal.mk .rgb text).outcome .hex true = .ok (some "#010203".toList)) ∧
      ((∃ c, Form.rgb.IsFunction c (Literal.mk .rgb nestedFunction).readText) ↔
        nestedFunction.count '(' = 1) := by
  have hmem : ⟨⟨.rgb, nestedFunction⟩, 0⟩ ∈ Token.scan nestedFunction := by decide +kernel
  have hr : (Literal.mk .rgb nestedFunction).outcome .hex true
      = .ok (some "#010203".toList) := by decide +kernel
  have key := Token.outcome_iff_of_mem_scan hmem (by decide) .hex true "#010203".toList
  exact ⟨hmem, by decide, key.1.mp hr, key.2 hr⟩

end Swatch
