import Swatch.Proofs.Document.Intermediate
/-!
Texts that differ in the case of their letters only.

The literals of a text are found by folding its letters, and are read in lower case.  Neither sees
the case of a letter of ASCII, so two texts that agree in lower case have the same literals at the
same places, and these have the same outcomes; only what does not convert keeps its own case.

* `Text.asciiLower`: a text with its letters of ASCII in lower case.
* `Literal.extent?_asciiLower`: the literal with which it begins is as long, and of the same form.
* `Token.scanFrom_asciiLower`: so its tokens are those of the text, in lower case.
* `Literal.outcome_asciiLower`: a literal in lower case has the same outcome.
* `Token.forall₂_scan_of_asciiLower_eq`: two texts that agree in lower case are converted alike.
-/

namespace Swatch

/-- A text with its letters of ASCII in lower case. -/
def Text.asciiLower (s : Text) : Text := s.map Char.toLower

/-! ### Letters -/

@[simp] lemma lowerLetter_toLower (c : Char) : lowerLetter c.toLower = lowerLetter c := by
  by_cases h : c = kelvinSign
  · rw [h]
    rfl
  · rw [← show lowerLetter c = c.toLower from if_neg h, lowerLetter_lowerLetter]

@[simp] lemma foldLetter_toLower (c : Char) : foldLetter c.toLower = foldLetter c := by
  rw [← foldLetter_lowerLetter, lowerLetter_toLower, foldLetter_lowerLetter]

lemma isHexDigit_toLower (c : Char) : isHexDigit c.toLower = isHexDigit c := by
  have hl := toNat_toLower c
  rw [Bool.eq_iff_iff, isHexDigit_iff, isHexDigit_iff]
  split at hl <;> omega

/-- A character that is no letter is the lower case of itself only. -/
lemma toLower_eq_iff_of_lt {c d : Char} (hd : d.toNat < 65) : c.toLower = d ↔ c = d := by
  have hl := toNat_toLower c
  rw [← Char.toNat_inj, ← Char.toNat_inj]
  split at hl <;> omega

/-- A run of a class that does not see the case of letters is a run in lower case. -/
lemma Text.span_asciiLower {p : Char → Bool} (hp : ∀ c : Char, p c.toLower = p c) (s : Text) :
    Text.span p (Text.asciiLower s)
      = (Text.asciiLower (Text.span p s).1, Text.asciiLower (Text.span p s).2) := by
  obtain ⟨hs, hrun, hstop⟩ := Text.span_eq_iff.mp (rfl : Text.span p s = _)
  refine Text.span_eq_iff.mpr ⟨?_, fun c hc => ?_, fun c hc => ?_⟩
  · rw [Text.asciiLower, Text.asciiLower, Text.asciiLower, ← List.map_append, Text.span_append]
  · obtain ⟨d, hd, rfl⟩ := List.mem_map.mp hc
    rw [hp]
    exact hrun d hd
  · rw [Text.asciiLower, List.head?_map] at hc
    obtain ⟨d, hd, rfl⟩ := Option.map_eq_some_iff.mp hc
    rw [hp]
    exact hstop d hd

/-! ### Literals -/

namespace Literal

lemma dropFolded?_asciiLower (word s : Text) :
    Text.dropFolded? word (Text.asciiLower s)
      = (Text.dropFolded? word s).map Text.asciiLower := by
  induction word generalizing s with
  | nil => rfl
  | cons w word ih =>
      cases s with
      | nil => rfl
      | cons c s =>
          change (if foldLetter c.toLower = w then
            Text.dropFolded? word (Text.asciiLower s) else none) = _
          rw [foldLetter_toLower, Text.dropFolded?, ih]
          split_ifs <;> rfl

lemma argumentLength?_asciiLower (s : Text) :
    argumentLength? (Text.asciiLower s) = argumentLength? s := by
  cases s with
  | nil => rfl
  | cons c s =>
      by_cases hc : c = '('
      · subst hc
        change argumentLength? ('(' :: Text.asciiLower s) = _
        have hspan := Text.span_asciiLower (p := (· ≠ ')')) (fun d => by
          rw [Bool.eq_iff_iff, decide_eq_true_eq, decide_eq_true_eq, ne_eq, ne_eq,
            toLower_eq_iff_of_lt (by decide)]) s
        rw [argumentLength?, argumentLength?, hspan]
        rcases Text.span (· ≠ ')') s with ⟨argument, rest⟩
        cases argument with
        | nil => rfl
        | cons d argument =>
            cases rest with
            | nil => rfl
            | cons e rest => simp [Text.asciiLower]
      · have hc' : c.toLower ≠ '(' := (toLower_eq_iff_of_lt (by decide)).not.mpr hc
        change argumentLength? (c.toLower :: Text.asciiLower s) = _
        rw [argumentLength?, argumentLength?]
        · exact fun t heq => hc (List.cons.inj heq).1
        · exact fun t heq => hc' (List.cons.inj heq).1

lemma hexLength?_asciiLower (s : Text) : hexLength? (Text.asciiLower s) = hexLength? s := by
  cases s with
  | nil => rfl
  | cons c s =>
      by_cases hc : c = '#'
      · subst hc
        change hexLength? ('#' :: Text.asciiLower s) = _
        have hrun : (Text.asciiLower s).takeWhile isHexDigit
            = Text.asciiLower (s.takeWhile isHexDigit) :=
          congrArg Prod.fst (Text.span_asciiLower isHexDigit_toLower s)
        have hlength : ((Text.asciiLower s).takeWhile isHexDigit).length
            = (s.takeWhile isHexDigit).length := by
          rw [hrun]
          exact List.length_map _
        simp only [hexLength?, hlength]
      · have hc' : c.toLower ≠ '#' := (toLower_eq_iff_of_lt (by decide)).not.mpr hc
        change hexLength? (c.toLower :: Text.asciiLower s) = _
        rw [hexLength?, hexLength?]
        · exact fun t heq => hc (List.cons.inj heq).1
        · exact fun t heq => hc' (List.cons.inj heq).1

/-- The literal with which a text begins is found whatever the case of its letters. -/
lemma extent?_asciiLower (s : Text) : extent? (Text.asciiLower s) = extent? s := by
  have hfunction (keyword : Text) :
      functionLength? keyword (Text.asciiLower s) = functionLength? keyword s := by
    rw [functionLength?, functionLength?, dropFolded?_asciiLower, Option.bind_map]
    exact congrArg (Option.map _) (congrArg (Option.bind _) (funext argumentLength?_asciiLower))
  simp only [extent?, hfunction, hexLength?_asciiLower]

/-- A literal with the letters of its text in lower case. -/
def asciiLower (l : Literal) : Literal := ⟨l.form, Text.asciiLower l.text⟩

/-- A literal is read in lower case, so it has the same outcome in lower case. -/
lemma outcome_asciiLower [Elementary] (l : Literal) (target : Form) (functional : Bool) :
    l.asciiLower.outcome target functional = l.outcome target functional := by
  have hlower : Text.lower (Text.asciiLower l.text) = Text.lower l.text := by
    simp [Text.lower, Text.asciiLower]
  refine outcome_congr ?_ target functional
  rw [sample, sample, asciiLower, hlower]

end Literal

lemma IsLiteral.asciiLower {rest text : Text} {form : Form} (h : IsLiteral rest form text) :
    IsLiteral (Text.asciiLower rest) form (Text.asciiLower text) := by
  have hextent : Literal.extent? (Text.asciiLower (text ++ rest)) = some (form, text.length) := by
    rw [Literal.extent?_asciiLower]
    exact Literal.extent?_eq_some_iff.mpr ⟨text, rest, rfl, h, rfl⟩
  obtain ⟨text', rest', heq, hl, hlength⟩ := Literal.extent?_eq_some_iff.mp hextent
  rw [Text.asciiLower, List.map_append] at heq
  obtain ⟨rfl, rfl⟩ := List.append_inj heq (by rw [List.length_map, hlength])
  exact hl

/-! ### Tokens -/

/-- A token with the letters of its text in lower case. -/
def Token.asciiLower (t : Token) : Token := ⟨t.toLiteral.asciiLower, t.start⟩

/-- The tokens of a text in lower case are the tokens of the text, in lower case. -/
lemma Token.scanFrom_asciiLower (start : Nat) (s : Text) :
    Token.scanFrom start (Text.asciiLower s) = (Token.scanFrom start s).map Token.asciiLower := by
  induction s using Literal.scanInduction generalizing start with
  | nil => rw [Token.scanFrom_nil]; exact Token.scanFrom_nil start
  | literal l rest hl ih =>
      have happend : Text.asciiLower (l.text ++ rest)
          = l.asciiLower.text ++ Text.asciiLower rest := List.map_append
      have hlength : l.asciiLower.text.length = l.text.length := List.length_map _
      rw [happend, Token.scanFrom_append (l := l.asciiLower) hl.asciiLower,
        Token.scanFrom_append hl, hlength, ih, List.map_cons]
      rfl
  | skip c s hnone ih =>
      have hnone' : Literal.atHead? (c.toLower :: Text.asciiLower s) = none := by
        rw [Literal.atHead?, Option.map_eq_none_iff] at hnone ⊢
        exact (Literal.extent?_asciiLower (c :: s)).trans hnone
      rw [Token.scanFrom_cons hnone, ← ih]
      exact Token.scanFrom_cons hnone' start

/-- Two tokens stand at the same place and are of the same form.  In every form they convert to the
same text, or neither of them converts and each is kept as it is written. -/
structure Token.ConvertsAlike [Elementary] (u v : Token) : Prop where
  start_eq : u.start = v.start
  stop_eq : u.stop = v.stop
  form_eq : u.form = v.form
  converts : ∀ (target : Form) (functional : Bool),
    (∃ text, u.toLiteral.outcome target functional = .ok (some text)
      ∧ v.toLiteral.outcome target functional = .ok (some text)
      ∧ (u.toLiteral.convertWith ⟨target.name, functional⟩).value = text
      ∧ (v.toLiteral.convertWith ⟨target.name, functional⟩).value = text)
    ∨ ((∀ text, u.toLiteral.outcome target functional ≠ .ok (some text))
      ∧ (∀ text, v.toLiteral.outcome target functional ≠ .ok (some text))
      ∧ (u.toLiteral.convertWith ⟨target.name, functional⟩).value = u.text
      ∧ (v.toLiteral.convertWith ⟨target.name, functional⟩).value = v.text)

/-- **Texts that agree in lower case** have as many tokens, at the same places and of the same
forms, and these convert alike. -/
theorem Token.forall₂_scan_of_asciiLower_eq [Elementary] {s t : Text}
    (h : Text.asciiLower s = Text.asciiLower t) :
    List.Forall₂ Token.ConvertsAlike (Token.scan s) (Token.scan t) := by
  have hscan : (Token.scan s).map Token.asciiLower = (Token.scan t).map Token.asciiLower := by
    rw [Token.scan, Token.scan, ← Token.scanFrom_asciiLower, ← Token.scanFrom_asciiLower, h]
  rw [← List.forall₂_eq_eq_eq, List.forall₂_map_left_iff, List.forall₂_map_right_iff] at hscan
  refine hscan.imp fun u v huv => ?_
  have hliteral : u.toLiteral.asciiLower = v.toLiteral.asciiLower := congrArg Token.toLiteral huv
  simp only [Token.asciiLower, Literal.asciiLower, Token.mk.injEq, Literal.mk.injEq] at huv
  obtain ⟨⟨hform, htext⟩, hstart⟩ := huv
  have hlength : u.text.length = v.text.length := by
    simpa [Text.asciiLower] using congrArg List.length htext
  refine ⟨hstart, by rw [Token.stop, Token.stop, hstart, hlength], hform,
    fun target functional => ?_⟩
  have houtcome : u.toLiteral.outcome target functional
      = v.toLiteral.outcome target functional := by
    rw [← Literal.outcome_asciiLower, hliteral, Literal.outcome_asciiLower]
  by_cases hconverts : ∃ text, u.toLiteral.outcome target functional = .ok (some text)
  · obtain ⟨text, hu⟩ := hconverts
    have hv := houtcome.symm.trans hu
    refine Or.inl ⟨text, hu, hv, ?_, ?_⟩
    · rw [Literal.value_convertWith_name, hu]
    · rw [Literal.value_convertWith_name, hv]
  · have hu := not_exists.mp hconverts
    have hv : ∀ text, v.toLiteral.outcome target functional ≠ .ok (some text) := by
      rwa [← houtcome]
    exact Or.inr ⟨hu, hv, Literal.value_convertWith_of_ne hu, Literal.value_convertWith_of_ne hv⟩

/-- A colour and a function that is none, in capitals and in small letters. -/
theorem Token.forall₂_scan_capitals :
    Text.asciiLower "RGB(1, 2, 3) HSL(X)".toList = Text.asciiLower "rgb(1, 2, 3) Hsl(x)".toList ∧
      (Token.scan "RGB(1, 2, 3) HSL(X)".toList).length = 2 ∧
      List.Forall₂ Token.ConvertsAlike (Token.scan "RGB(1, 2, 3) HSL(X)".toList)
        (Token.scan "rgb(1, 2, 3) Hsl(x)".toList) := by
  have h : Text.asciiLower "RGB(1, 2, 3) HSL(X)".toList
      = Text.asciiLower "rgb(1, 2, 3) Hsl(x)".toList := by decide
  exact ⟨h, by decide +kernel, Token.forall₂_scan_of_asciiLower_eq h⟩

end Swatch
