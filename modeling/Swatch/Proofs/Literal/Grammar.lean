import Swatch.Literal
import Swatch.Proofs.Text.Letter
import Swatch.Proofs.Text.Parts
/-!
What a colour literal is, said without the scanner.

A function is a keyword, spelled in any case, and an argument in parentheses that is not empty and
holds no closing one.  The other literals are a number sign and hexadecimal digits, as many of up to
eight as there are.

* `IsLiteral`: the texts that are literals of a form in front of some other text.
* `Literal.atHead?_eq_some_iff`: the literal with which a text begins is the one described here, so
  that a text begins with at most one.
-/

namespace Swatch

/-- The keywords of a form. -/
def Form.keywords : Form → List Text
  | .hex => []
  | .rgb => ["rgb".toList, "rgba".toList]
  | .hsl => ["hsl".toList, "hsla".toList]
  | .oklch => ["oklch".toList]

/-- A text is a literal of a form in front of the text that follows it. -/
inductive IsLiteral (rest : Text) : Form → Text → Prop where
  | function {form : Form} {word name argument : Text} (hword : word ∈ form.keywords)
      (hname : Spells word name) (hne : argument ≠ []) (hclose : ')' ∉ argument) :
      IsLiteral rest form (name ++ '(' :: (argument ++ [')']))
  | hex {digits : Text} (hmin : 3 ≤ digits.length) (hmax : digits.length ≤ 8)
      (hdigits : ∀ c ∈ digits, isHexDigit c)
      (hstop : digits.length = 8 ∨ Text.Stops isHexDigit rest) :
      IsLiteral rest .hex ('#' :: digits)

/-- Three to eight hexadecimal digits by themselves are a literal. -/
lemma isLiteral_digits {digits : Text} (hmin : 3 ≤ digits.length) (hmax : digits.length ≤ 8)
    (hdigits : ∀ c ∈ digits, isHexDigit c) : IsLiteral [] .hex ('#' :: digits) :=
  .hex hmin hmax hdigits (Or.inr (Text.stops_nil _))

lemma IsLiteral.ne_nil {rest text : Text} {form : Form} (h : IsLiteral rest form text) :
    text ≠ [] := by
  cases h <;> simp

/-- A literal of a form with keywords is a function. -/
lemma IsLiteral.eq_function {rest text : Text} {form : Form} (h : IsLiteral rest form text)
    (hform : form ≠ .hex) : ∃ word name argument, word ∈ form.keywords ∧ Spells word name ∧
      argument ≠ [] ∧ ')' ∉ argument ∧ text = name ++ '(' :: (argument ++ [')']) := by
  cases h with
  | @function _ word name argument hword hname hne hclose =>
      exact ⟨word, name, argument, hword, hname, hne, hclose, rfl⟩
  | hex => exact absurd rfl hform

/-- What follows a function does not matter. -/
lemma IsLiteral.of_function {rest rest' text : Text} {form : Form} (h : IsLiteral rest form text)
    (hform : form ≠ .hex) : IsLiteral rest' form text := by
  cases h with
  | function hword hname hne hclose => exact .function hword hname hne hclose
  | hex => exact absurd rfl hform

/-! ### Keywords -/

lemma Form.isLowerLetter_of_mem_keywords {form : Form} {word : Text} (h : word ∈ form.keywords) :
    ∀ w ∈ word, IsLowerLetter w := by
  revert word
  cases form <;> decide

lemma Form.ne_nil_of_mem_keywords {form : Form} {word : Text} (h : word ∈ form.keywords) :
    word ≠ [] := by
  revert word
  cases form <;> decide

lemma Literal.mem_keywords_iff {form : Form} {word : Text} :
    (form, word) ∈ Literal.keywords ↔ word ∈ form.keywords := by
  cases form <;> simp [Literal.keywords, Form.keywords]

/-- A keyword has one form. -/
lemma Literal.keywords_inj : ∀ e ∈ Literal.keywords, ∀ e' ∈ Literal.keywords,
    e.2 = e'.2 → e = e' := by
  decide

/-- What spells a word of letters holds letters only. -/
lemma Spells.notMem_of_letters {word name : Text} {c : Char} (hlow : ∀ w ∈ word, IsLowerLetter w)
    (hname : Spells word name) (hc : ¬ IsLowerLetter (foldLetter c)) : c ∉ name := by
  intro hmem
  refine hc (hlow _ ?_)
  rw [← hname.map_foldLetter hlow]
  exact List.mem_map_of_mem hmem

/-- The name of a function holds letters only. -/
lemma Spells.notMem {form : Form} {word name : Text} {c : Char} (hword : word ∈ form.keywords)
    (hname : Spells word name) (hc : ¬ IsLowerLetter (foldLetter c)) : c ∉ name :=
  hname.notMem_of_letters (Form.isLowerLetter_of_mem_keywords hword) hc

lemma Spells.ne_nil {form : Form} {word name : Text} (hword : word ∈ form.keywords)
    (hname : Spells word name) : name ≠ [] := by
  intro hnil
  rw [hnil] at hname
  cases hname
  exact Form.ne_nil_of_mem_keywords hword rfl

/-! ### The two kinds of literal -/

namespace Literal

lemma argumentLength?_eq_some_iff {s : Text} {n : Nat} :
    argumentLength? s = some n ↔ ∃ argument rest, argument ≠ [] ∧ ')' ∉ argument ∧
      s = '(' :: (argument ++ ')' :: rest) ∧ n = argument.length + 2 := by
  constructor
  · intro h
    unfold argumentLength? at h
    split at h
    · next s =>
      split at h
      · exact absurd h (by simp)
      · exact absurd h (by simp)
      · next argument c rest hne hs =>
        obtain ⟨rfl, hrun, hstop⟩ := Text.span_eq_iff.mp hs
        have hc : c = ')' := by simpa using hstop
        refine ⟨argument, rest, fun hnil => hne hnil, fun hmem => ?_, by rw [hc],
          (Option.some.inj h).symm⟩
        simpa using hrun _ hmem
    · exact absurd h (by simp)
  · rintro ⟨argument, rest, hne, hclose, rfl, rfl⟩
    simp only [argumentLength?, Text.span_of_notMem hclose]

lemma functionLength?_eq_some_iff {form : Form} {keyword s : Text} {n : Nat}
    (hword : keyword ∈ form.keywords) :
    functionLength? keyword s = some n ↔ ∃ name argument rest, Spells keyword name ∧
      argument ≠ [] ∧ ')' ∉ argument ∧ s = name ++ '(' :: (argument ++ ')' :: rest) ∧
      n = name.length + (argument.length + 2) := by
  have hlow := Form.isLowerLetter_of_mem_keywords hword
  rw [functionLength?, Option.map_eq_some_iff]
  constructor
  · rintro ⟨k, hk, rfl⟩
    obtain ⟨tail, htail, harg⟩ := Option.bind_eq_some_iff.mp hk
    obtain ⟨name, hname, rfl⟩ := (Text.dropFolded?_eq_some_iff hlow).mp htail
    obtain ⟨argument, rest, hne, hclose, rfl, rfl⟩ := argumentLength?_eq_some_iff.mp harg
    exact ⟨name, argument, rest, hname, hne, hclose, rfl, by rw [hname.length_eq]⟩
  · rintro ⟨name, argument, rest, hname, hne, hclose, rfl, rfl⟩
    refine ⟨argument.length + 2, Option.bind_eq_some_iff.mpr ⟨'(' :: (argument ++ ')' :: rest),
      (Text.dropFolded?_eq_some_iff hlow).mpr ⟨name, hname, rfl⟩,
      argumentLength?_eq_some_iff.mpr ⟨argument, rest, hne, hclose, rfl, rfl⟩⟩, ?_⟩
    rw [hname.length_eq]

/-- A character that is no letter ends the name of a function. -/
lemma name_unique {form form' : Form} {word word' name name' tail tail' : Text}
    (hword : word ∈ form.keywords) (hname : Spells word name) (hword' : word' ∈ form'.keywords)
    (hname' : Spells word' name') (heq : name ++ '(' :: tail = name' ++ '(' :: tail') :
    name = name' ∧ tail = tail' := by
  have hopen : ¬ IsLowerLetter (foldLetter '(') := by decide
  exact Text.append_cons_inj (hname.notMem hword hopen) (hname'.notMem hword' hopen) heq

/-- At most one keyword opens a function at the start of a text. -/
lemma keyword_unique {form form' : Form} {word word' s : Text} {n n' : Nat}
    (hword : word ∈ form.keywords) (hword' : word' ∈ form'.keywords)
    (h : functionLength? word s = some n) (h' : functionLength? word' s = some n') :
    word = word' := by
  obtain ⟨name, argument, rest, hname, -, -, rfl, -⟩ := (functionLength?_eq_some_iff hword).mp h
  obtain ⟨name', argument', rest', hname', -, -, heq, -⟩ :=
    (functionLength?_eq_some_iff hword').mp h'
  obtain ⟨rfl, -⟩ := name_unique hword hname hword' hname' heq
  rw [← hname.map_foldLetter (Form.isLowerLetter_of_mem_keywords hword),
    ← hname'.map_foldLetter (Form.isLowerLetter_of_mem_keywords hword')]

/-- The digits of a literal are a run, or the first eight of one. -/
lemma hexLength?_eq_some_iff {s : Text} {n : Nat} :
    hexLength? s = some n ↔ ∃ digits rest, 3 ≤ digits.length ∧ digits.length ≤ 8 ∧
      (∀ c ∈ digits, isHexDigit c) ∧ (digits.length = 8 ∨ Text.Stops isHexDigit rest) ∧
      s = '#' :: (digits ++ rest) ∧ n = digits.length + 1 := by
  constructor
  · intro h
    unfold hexLength? at h
    split at h
    · next s =>
      simp only at h
      split at h
      · exact absurd h (by simp)
      · next hmin =>
        obtain ⟨run, rest, hs⟩ : ∃ run rest, Text.span isHexDigit s = (run, rest) := ⟨_, _, rfl⟩
        obtain ⟨hspan, hrun, hstop⟩ := Text.span_eq_iff.mp hs
        have htake : s.takeWhile isHexDigit = run := congrArg Prod.fst hs
        rw [htake] at h hmin
        refine ⟨run.take 8, run.drop 8 ++ rest, by rw [List.length_take]; omega,
          by rw [List.length_take]; omega, fun c hc => hrun c (List.mem_of_mem_take hc), ?_, ?_,
          by rw [List.length_take]; exact (Option.some.inj h).symm⟩
        · by_cases hlen : run.length < 8
          · rw [List.drop_of_length_le (by omega)]
            exact Or.inr hstop
          · exact Or.inl (by rw [List.length_take]; omega)
        · rw [hspan, ← List.append_assoc, List.take_append_drop]
    · exact absurd h (by simp)
  · rintro ⟨digits, rest, hmin, hmax, hdigits, hstop, rfl, rfl⟩
    have hrun : min 8 ((digits ++ rest).takeWhile isHexDigit).length = digits.length := by
      rw [List.takeWhile_append_of_pos hdigits, List.length_append]
      rcases hstop with height | hstop
      · omega
      · rw [Text.takeWhile_eq_nil_iff.mpr hstop, List.length_nil]
        omega
    simp only [hexLength?, hrun]
    rw [if_neg (by omega)]

/-! ### The literal at the head of a text -/

lemma findSome?_keywords {form : Form} {word s : Text} {n : Nat} (hword : word ∈ form.keywords)
    (h : functionLength? word s = some n) :
    (keywords.findSome? fun (form, keyword) => (functionLength? keyword s).map (form, ·))
      = some (form, n) := by
  have hmem := mem_keywords_iff.mpr hword
  cases hf : keywords.findSome? fun (form, keyword) =>
      (functionLength? keyword s).map (form, ·) with
  | none =>
      have hnone := List.findSome?_eq_none_iff.mp hf _ hmem
      simp [h] at hnone
  | some found =>
      obtain ⟨⟨form', word'⟩, hmem', he⟩ := List.exists_of_findSome?_eq_some hf
      obtain ⟨k, hk, rfl⟩ := Option.map_eq_some_iff.mp he
      have hsame := keyword_unique hword (mem_keywords_iff.mp hmem') h hk
      obtain ⟨rfl, rfl⟩ := Prod.mk.inj (keywords_inj _ hmem _ hmem' hsame)
      rw [h, Option.some.injEq] at hk
      rw [hk]

/-- No function begins with a number sign. -/
lemma functionLength?_numberSign {form : Form} {word : Text} (hword : word ∈ form.keywords)
    (s : Text) : functionLength? word ('#' :: s) = none := by
  by_contra hne
  obtain ⟨n, hn⟩ := Option.ne_none_iff_exists'.mp hne
  obtain ⟨name, argument, rest, hname, -, -, heq, -⟩ := (functionLength?_eq_some_iff hword).mp hn
  obtain ⟨c, name', rfl⟩ := List.exists_cons_of_ne_nil (hname.ne_nil hword)
  rw [List.cons_append, List.cons.injEq] at heq
  exact hname.notMem hword (c := c) (by rw [← heq.1]; decide) (by simp)

lemma extent?_eq_some_iff {s : Text} {form : Form} {n : Nat} :
    extent? s = some (form, n) ↔
      ∃ text rest, s = text ++ rest ∧ IsLiteral rest form text ∧ n = text.length := by
  constructor
  · intro h
    unfold extent? at h
    split at h
    · next found hf =>
      obtain ⟨⟨form', word⟩, hmem, he⟩ := List.exists_of_findSome?_eq_some hf
      obtain ⟨k, hk, rfl⟩ := Option.map_eq_some_iff.mp he
      obtain ⟨rfl, rfl⟩ := Prod.mk.inj (Option.some.inj h)
      have hword := mem_keywords_iff.mp hmem
      obtain ⟨name, argument, rest, hname, hne, hclose, rfl, rfl⟩ :=
        (functionLength?_eq_some_iff hword).mp hk
      exact ⟨name ++ '(' :: (argument ++ [')']), rest, by simp,
        .function hword hname hne hclose, by simp⟩
    · obtain ⟨k, hk, h⟩ := Option.map_eq_some_iff.mp h
      obtain ⟨rfl, rfl⟩ := Prod.mk.inj h
      obtain ⟨digits, rest, hmin, hmax, hdigits, hstop, rfl, rfl⟩ :=
        hexLength?_eq_some_iff.mp hk
      exact ⟨'#' :: digits, rest, rfl, .hex hmin hmax hdigits hstop, rfl⟩
  · rintro ⟨text, rest, rfl, h, rfl⟩
    cases h with
    | @function _ word name argument hword hname hne hclose =>
        have hlen : functionLength? word (name ++ '(' :: (argument ++ [')']) ++ rest)
            = some (name ++ '(' :: (argument ++ [')'])).length :=
          (functionLength?_eq_some_iff hword).mpr
            ⟨name, argument, rest, hname, hne, hclose, by simp, by simp⟩
        simp only [extent?, findSome?_keywords hword hlen]
    | @hex digits hmin hmax hdigits hstop =>
        have hnone : (keywords.findSome? fun (form, keyword) =>
            (functionLength? keyword ('#' :: (digits ++ rest))).map (form, ·)) = none := by
          refine List.findSome?_eq_none_iff.mpr fun ⟨form, word⟩ hmem => ?_
          simp [functionLength?_numberSign (mem_keywords_iff.mp hmem)]
        have hlen : hexLength? ('#' :: (digits ++ rest)) = some (digits.length + 1) :=
          hexLength?_eq_some_iff.mpr ⟨digits, rest, hmin, hmax, hdigits, hstop, rfl, rfl⟩
        simp only [extent?, List.cons_append, hnone, hlen]
        rfl

/-- The literal with which a text begins is the one that stands there. -/
theorem atHead?_eq_some_iff {s : Text} {literal : Literal} :
    atHead? s = some literal ↔
      ∃ rest, s = literal.text ++ rest ∧ IsLiteral rest literal.form literal.text := by
  rw [atHead?, Option.map_eq_some_iff]
  constructor
  · rintro ⟨⟨form, n⟩, he, rfl⟩
    obtain ⟨text, rest, rfl, h, rfl⟩ := extent?_eq_some_iff.mp he
    refine ⟨rest, ?_, ?_⟩
    · simp
    · simpa using h
  · rintro ⟨rest, rfl, h⟩
    refine ⟨(literal.form, literal.text.length), extent?_eq_some_iff.mpr ⟨_, rest, rfl, h, rfl⟩, ?_⟩
    simp

lemma atHead?_append {rest text : Text} {form : Form} (h : IsLiteral rest form text) :
    atHead? (text ++ rest) = some ⟨form, text⟩ :=
  atHead?_eq_some_iff.mpr ⟨rest, rfl, h⟩

end Literal

end Swatch
