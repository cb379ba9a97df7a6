import Swatch.Proofs.Literal.Opaque
import Swatch.Proofs.Literal.Reread
/-!
Colours by way of `hsl` functions.

A written function has a hue in whole degrees, and a saturation and a lightness in tenths of
percents.  On the wheel this moves no channel by more than two bytes.  A hue that is less than half
a degree short of the full turn is written as the full turn, though, which lies off the wheel: a red
with hardly more blue than green comes back as a grey.

* `Bytes.IsNearest.abs_byte_sub_le`: what is near the channels of a written function is at most two
  bytes from the colour that was written.
* `Bytes.IsNearest.fullTurn`, `Bytes.IsNearest.eq_fullTurn`: which colours are written with a full
  turn.
* `Color.hsl_roundTrip`: a colour of six hexadecimal digits by way of its `hsl` function.
-/

namespace Swatch

open Binary64 Decimal Parts

/-! ### What is lost in writing -/

/-- Clamping brings no integer farther from one that lies between the bounds. -/
lemma abs_clampChannel_sub_le {m n : ℤ} (hm : 0 ≤ m ∧ m ≤ 255) :
    |clampChannel n - m| ≤ |n - m| := by
  have hlow := neg_abs_le (n - m)
  have hhigh := le_abs_self (n - m)
  rw [clampChannel, abs_le]
  constructor <;> omega

namespace Bytes

variable (c : Bytes) {hue saturation lightness : Nat}

/-- A channel of a colour. -/
def channel (x : Channel) : ℤ := Channel.pick c.red c.green c.blue x

lemma channel_mem (x : Channel) : 0 ≤ c.channel x ∧ c.channel x ≤ 255 := by
  cases x with
  | red => exact c.red_mem
  | green => exact c.green_mem
  | blue => exact c.blue_mem

lemma mul_channel_hsl (x : Channel) : 255 * c.hsl.channel x = c.channel x := by
  rw [channel_hsl]
  cases x <;> exact mul_div_cancel₀ _ (by norm_num)

variable {c}

/-- The channels of a written function are less than two and a half bytes from those of the
colour. -/
lemma IsNearest.abs_channel_sub_le (h : c.IsNearest hue saturation lightness) (x : Channel) :
    |255 * (Hsl.exactOf hue saturation lightness).channel x - c.channel x| ≤ 49 / 20 := by
  have hmoved := ExactHsl.abs_channel_sub_le c.inRange_hsl
    (Hsl.inRange_exactOf hue h.saturation_le h.lightness_le) x
  have hhue : |(Hsl.exactOf hue saturation lightness).hue - c.hsl.hue| ≤ _ := h.hue_near
  have hsaturation : |(Hsl.exactOf hue saturation lightness).saturation - c.hsl.saturation| ≤ _ :=
    h.saturation_near
  have hlightness : |(Hsl.exactOf hue saturation lightness).lightness - c.hsl.lightness| ≤ _ :=
    h.lightness_near
  rw [← mul_channel_hsl, ← mul_sub, abs_mul, abs_of_pos (by norm_num : (0 : ℚ) < 255)]
  linarith

/-- A byte that was rounded from such a channel is at most two bytes from the colour. -/
lemma IsNearest.abs_byte_sub_le (h : c.IsNearest hue saturation lightness) {x : Channel} {n : ℤ}
    (hn : |(n : ℚ) - 255 * (Hsl.exactOf hue saturation lightness).channel x|
      ≤ 1 / 2 + 1 / 2 ^ 20) : |n - c.channel x| ≤ 2 := by
  have hlt : |((n - c.channel x : ℤ) : ℚ)| < 3 := by
    push_cast
    have hsum := abs_sub_le (n : ℚ) (255 * (Hsl.exactOf hue saturation lightness).channel x)
      (c.channel x)
    linarith [h.abs_channel_sub_le x]
  have hlt' : |n - c.channel x| < 3 := by exact_mod_cast hlt
  omega

/-! ### The full turn -/

/-- In the last sixth of the wheel the hue says how much more blue there is than green. -/
lemma hue_of_last (hgb : c.green < c.blue) (hbr : c.blue ≤ c.red) :
    c.hsl.hue = 6 - (c.blue - c.green) / (c.red - c.green) := by
  have hgb' : (c.green : ℚ) / 255 < c.blue / 255 :=
    div_lt_div_of_pos_right (by exact_mod_cast hgb) (by norm_num)
  have hbr' : (c.blue : ℚ) / 255 ≤ c.red / 255 :=
    div_le_div_of_nonneg_right (by exact_mod_cast hbr) (by norm_num)
  refine (ExactHsl.hueOfChannels_of_last hgb' hbr').trans ?_
  rw [← sub_div, ← sub_div, div_div_div_cancel_right₀ (by norm_num)]

/-- A colour that is written with a full turn is a red with hardly more blue than green. -/
lemma IsNearest.fullTurn (h : c.IsNearest 360 saturation lightness) :
    c.green < c.blue ∧ 120 * (c.blue - c.green) ≤ c.red - c.green := by
  have hhue := (abs_le.mp h.hue_near).2
  norm_num at hhue
  -- before the last sixth the hue is too far from the full turn
  have hlast : c.green < c.blue ∧ c.blue ≤ c.red := by
    by_contra hnot
    have hle : c.hsl.hue ≤ 5 := by
      refine ExactHsl.hueOfChannels_le_five fun hlast => hnot ?_
      rw [div_lt_div_iff_of_pos_right (by norm_num), div_le_div_iff_of_pos_right (by norm_num)]
        at hlast
      exact_mod_cast hlast
    linarith
  obtain ⟨hgb, hbr⟩ := hlast
  have hpos : (0 : ℚ) < c.red - c.green := by
    rw [sub_pos]
    exact_mod_cast hgb.trans_le hbr
  have hspread : ((c.red : ℚ) - c.green) ≤ 255 := by
    have hle : c.red - c.green ≤ 255 := by linarith [c.red_mem.2, c.green_mem.1]
    exact_mod_cast hle
  rw [c.hue_of_last hgb hbr] at hhue
  have hratio : ((c.blue : ℚ) - c.green) / (c.red - c.green) ≤ 1 / 120 + 1 / 2 ^ 20 := by
    linarith
  rw [div_le_iff₀ hpos] at hratio
  have hlt : 120 * ((c.blue : ℚ) - c.green) < c.red - c.green + 1 := by linarith
  have hlt' : 120 * (c.blue - c.green) < c.red - c.green + 1 := by exact_mod_cast hlt
  exact ⟨hgb, by omega⟩

/-- A colour whose hue is less than half a degree short of the full turn is written with one. -/
lemma IsNearest.eq_fullTurn (h : c.IsNearest hue saturation lightness) (hgb : c.green < c.blue)
    (hlt : 120 * (c.blue - c.green) < c.red - c.green) : hue = 360 := by
  have hbr : c.blue ≤ c.red := by omega
  have hpos : (0 : ℚ) < c.red - c.green := by
    rw [sub_pos]
    exact_mod_cast hgb.trans_le hbr
  have hspread : ((c.red : ℚ) - c.green) ≤ 255 := by
    have hle : c.red - c.green ≤ 255 := by linarith [c.red_mem.2, c.green_mem.1]
    exact_mod_cast hle
  have hhue := (abs_le.mp h.hue_near).1
  rw [c.hue_of_last hgb hbr] at hhue
  -- both sides are integers, so there is room for the errors of rounding
  have hstep : 120 * ((c.blue : ℚ) - c.green) + 1 ≤ c.red - c.green := by exact_mod_cast hlt
  have hratio : ((c.blue : ℚ) - c.green) / (c.red - c.green) ≤ 1 / 120 - 1 / 2 ^ 15 := by
    rw [div_le_iff₀ hpos]
    linarith
  have hlarge : (359 : ℚ) < hue := by linarith
  have hlarge' : 359 < hue := by exact_mod_cast hlarge
  exact le_antisymm h.hue_le hlarge'

end Bytes

/-! ### Six hexadecimal digits -/

/-- A hexadecimal digit has the same value in lower case. -/
lemma hexDigitValue_lowerLetter {c : Char} (h : isHexDigit c = true) :
    hexDigitValue (lowerLetter c) = hexDigitValue c := by
  have hne : c ≠ kelvinSign := by
    rintro rfl
    exact absurd h (by decide)
  have hl := toNat_toLower c
  have hl' := toNat_toLower c.toLower
  rw [show lowerLetter c = c.toLower from if_neg hne, hexDigitValue, hexDigitValue]
  by_cases hdigit : c.isDigit = true
  · have hsame : c.toLower = c := by
      rw [isDigit_iff] at hdigit
      rw [← Char.toNat_inj]
      split at hl <;> omega
    rw [hsame, if_pos hdigit, if_pos hdigit]
  · have hdigit' : ¬ c.toLower.isDigit = true := by
      rw [isDigit_iff] at hdigit ⊢
      split at hl <;> omega
    have hsame : c.toLower.toLower = c.toLower := by
      rw [← Char.toNat_inj]
      split at hl <;> split at hl' <;> omega
    rw [if_neg hdigit, if_neg hdigit', hsame]

/-- Digits have the same value in lower case. -/
lemma hexValue_lower {s : Text} (h : ∀ d ∈ s, isHexDigit d = true) :
    hexValue (Text.lower s) = hexValue s := by
  have hfold (n : Nat) : (Text.lower s).foldl (fun n d => 16 * n + hexDigitValue d) n
      = s.foldl (fun n d => 16 * n + hexDigitValue d) n := by
    induction s generalizing n with
    | nil => rfl
    | cons d s ih =>
        rw [List.forall_mem_cons] at h
        rw [Text.lower, List.map_cons, List.foldl_cons, List.foldl_cons,
          hexDigitValue_lowerLetter h.1]
        exact ih h.2 _
  exact hfold 0

/-- Six digits are read as the colour of their three pairs. -/
lemma Hex.exists_bytes [Elementary] {r r' g g' b b' : Char}
    (hdigits : ∀ d ∈ [r, r', g, g', b, b'], isHexDigit d = true) :
    ∃ c : Bytes, (c.red = hexValue [r, r'] ∧ c.green = hexValue [g, g'] ∧
        c.blue = hexValue [b, b']) ∧
      (Literal.mk .hex ['#', r, r', g, g', b, b']).sample = .ok (some (c.sample none)) := by
  obtain ⟨found, hfound, hsample⟩ := Hex.exists_sample hdigits (Or.inl rfl)
  have hlower := isHexDigit_of_mem_lower hdigits
  obtain ⟨hred, hgreen, hblue, -⟩ := Hex.isPair_of_components? hfound
  have hred' := (hred.readHexByte hlower).2
  have hgreen' := (hgreen.readHexByte hlower).2
  have hblue' := (hblue.readHexByte hlower).2
  have hvalue {c d : Char} (hc : isHexDigit c = true) (hd : isHexDigit d = true) :
      hexValue [lowerLetter c, lowerLetter d] = hexValue [c, d] :=
    hexValue_lower (s := [c, d]) (by simp [hc, hd])
  have hcomponents : found = ⟨[lowerLetter r, lowerLetter r'], [lowerLetter g, lowerLetter g'],
      [lowerLetter b, lowerLetter b'], none⟩ := (Option.some.inj hfound).symm
  have hfirst : hexValue found.first = hexValue [r, r'] := by
    rw [hcomponents, hvalue (hdigits r (by simp)) (hdigits r' (by simp))]
  have hsecond : hexValue found.second = hexValue [g, g'] := by
    rw [hcomponents, hvalue (hdigits g (by simp)) (hdigits g' (by simp))]
  have hthird : hexValue found.third = hexValue [b, b'] := by
    rw [hcomponents, hvalue (hdigits b (by simp)) (hdigits b' (by simp))]
  refine ⟨⟨hexValue found.first, hexValue found.second, hexValue found.third, by omega, by omega,
    by omega⟩, ⟨congrArg Nat.cast hfirst, congrArg Nat.cast hsecond, congrArg Nat.cast hthird⟩, ?_⟩
  rw [hsample, Hex.sampleOf, show found.alpha = none from congrArg Components.alpha hcomponents]
  rfl

/-! ### There and back -/

/-- The `hsl` function of a hue in degrees, and of a saturation and a lightness in tenths of
percents. -/
def Hsl.text (hue saturation lightness : Nat) : Text :=
  functionText "hsl".toList (digitsOf hue) (tenthsText saturation ++ ['%'])
    (tenthsText lightness ++ ['%']) none

namespace Bytes

variable (c : Bytes) {hue saturation lightness : Nat}

/-- Bytes are clamped already. -/
lemma clamped_sample {alpha : Option Binary64} :
    (c.sample alpha).clamped = .ok (c.sample alpha) :=
  Sample.clamped_integers c.red_mem c.green_mem c.blue_mem alpha

/-- The `hsl` function of an opaque colour. -/
lemma exists_write_hsl [Elementary] : ∃ hue saturation lightness, c.IsNearest hue saturation
    lightness ∧
    Form.hsl.write (c.sample none) true = .ok (Hsl.text hue saturation lightness) := by
  have hnone : Layout.alphaText (c.sample none) = .ok none := by
    rw [Layout.alphaText, c.alpha_sample]
  exact c.exists_hsl hnone

/-- What comes back of an `hsl` function. -/
lemma IsNearest.exists_outcome_rgb [Elementary] {c : Bytes}
    (h : c.IsNearest hue saturation lightness) :
    ∃ n : Channel → ℤ,
      (Literal.mk .hsl (Hsl.text hue saturation lightness)).outcome .rgb true
        = .ok (some (Rgb.text (n .red) (n .green) (n .blue))) ∧
      (hue < 360 → ∀ x, |n x - c.channel x| ≤ 2) ∧
      (hue = 360 → n .red = n .green ∧ n .green = n .blue) := by
  obtain ⟨n, hsample, hfinite, hwheel, hturn⟩ := Hsl.exists_sample h.hue_le h.saturation_le
    h.lightness_le (rfl : Swatch.readAlpha ((none : Option Nat).map hundredthsText) = .ok none)
  refine ⟨fun x => clampChannel (n x), ?_, fun hlt x => ?_, fun heq => ?_⟩
  · rw [Option.map_none] at hsample
    have hclamped := Sample.clamped_ofInt (hfinite .red) (hfinite .green) (hfinite .blue) none
    have hwrite := Rgb.write_integers (clampChannel_mem (n .red)) (clampChannel_mem (n .green))
      (clampChannel_mem (n .blue))
    rw [Hsl.text, Literal.outcome_of_sample hsample hclamped]
    exact map_some_eq_ok.mpr hwrite
  · exact (abs_clampChannel_sub_le (c.channel_mem x)).trans (h.abs_byte_sub_le (hwheel hlt x))
  · obtain ⟨hred, hgreen⟩ := hturn heq
    exact ⟨congrArg clampChannel hred, congrArg clampChannel hgreen⟩

end Bytes

namespace Color

/-- **By way of an `hsl` function**: a colour of six hexadecimal digits converts to one, and that
converts to an `rgb` function.  On the wheel every channel comes back within two bytes.  If the hue
is written as the full turn, a grey comes back, and some channel is more than three bytes off.  That
is so for all colours whose hue is less than half a degree short of the full turn, and for no others
but those that are short of it by just half a degree. -/
theorem hsl_roundTrip [Elementary] {r r' g g' b b' : Char}
    (hdigits : ∀ d ∈ [r, r', g, g', b, b'], isHexDigit d = true) :
    ∃ (c : Bytes) (hue saturation lightness : Nat) (n : Channel → ℤ),
      (c.red = hexValue [r, r'] ∧ c.green = hexValue [g, g'] ∧ c.blue = hexValue [b, b']) ∧
      (convert? ⟨Form.hsl.name, true⟩ ['#', r, r', g, g', b, b']).value
        = some (Hsl.text hue saturation lightness) ∧
      (convert? ⟨Form.rgb.name, true⟩ (Hsl.text hue saturation lightness)).value
        = some (Rgb.text (n .red) (n .green) (n .blue)) ∧
      (hue ≤ 360 ∧ saturation ≤ 1000 ∧ lightness ≤ 1000) ∧
      (hue < 360 → ∀ x, |n x - c.channel x| ≤ 2) ∧
      (hue = 360 → n .red = n .green ∧ n .green = n .blue ∧ ∃ x, 3 < |n x - c.channel x|) ∧
      (hue = 360 → c.green < c.blue ∧ 120 * (c.blue - c.green) ≤ c.red - c.green) ∧
      (c.green < c.blue → 120 * (c.blue - c.green) < c.red - c.green → hue = 360) := by
  obtain ⟨c, hc, hsample⟩ := Hex.exists_bytes hdigits
  obtain ⟨hue, saturation, lightness, hnear, hwrite⟩ := c.exists_write_hsl
  obtain ⟨n, houtcome, hwheel, hgrey⟩ := hnear.exists_outcome_rgb
  have hhex : IsLiteral [] .hex ['#', r, r', g, g', b, b'] :=
    .hex (by simp) (by simp) hdigits (Or.inr (Text.stops_nil _))
  have hfunction : Form.hsl.IsFunction _ (Hsl.text hue saturation lightness) :=
    Hsl.isFunction_functionText (by simp) hue saturation lightness
  have hfar : hue = 360 → c.green < c.blue ∧ 120 * (c.blue - c.green) ≤ c.red - c.green := by
    rintro rfl
    exact hnear.fullTurn
  refine ⟨c, hue, saturation, lightness, n, hc, ?_, ?_,
    ⟨hnear.hue_le, hnear.saturation_le, hnear.lightness_le⟩, hwheel, fun heq => ?_, hfar,
    hnear.eq_fullTurn⟩
  · refine value_convert?_eq_some_iff.mpr ⟨_, Token.ofWhole?_of_isLiteral hhex, ?_⟩
    rw [Literal.outcome_of_sample hsample c.clamped_sample]
    exact map_some_eq_ok.mpr hwrite
  · exact value_convert?_eq_some_iff.mpr
      ⟨_, Token.ofWhole?_of_isLiteral (hfunction.isLiteral []), houtcome⟩
  · -- red and green are 120 bytes apart at least, so a grey cannot be near to both
    obtain ⟨hred, hgreen⟩ := hgrey heq
    obtain ⟨hgb, hspread⟩ := hfar heq
    refine ⟨hred, hgreen, ?_⟩
    by_contra hnear
    rw [not_exists] at hnear
    obtain ⟨hlow, -⟩ := abs_le.mp (not_lt.mp (hnear .red))
    obtain ⟨-, hhigh⟩ := abs_le.mp (not_lt.mp (hnear .green))
    change -3 ≤ n .red - c.red at hlow
    change n .green - c.green ≤ 3 at hhigh
    omega

/-- A red with a trace of blue comes back as a grey. -/
theorem hsl_roundTrip_almostRed :
    (∀ d ∈ ['f', 'f', '0', '0', '0', '1'], isHexDigit d = true) ∧
      ∃ (saturation lightness : Nat) (n : ℤ),
        (convert? ⟨Form.hsl.name, true⟩ "#ff0001".toList).value
          = some (Hsl.text 360 saturation lightness) ∧
        (convert? ⟨Form.rgb.name, true⟩ (Hsl.text 360 saturation lightness)).value
          = some (Rgb.text n n n) := by
  have hdigits : ∀ d ∈ ['f', 'f', '0', '0', '0', '1'], isHexDigit d = true := by decide
  obtain ⟨c, hue, saturation, lightness, n, ⟨hred, hgreen, hblue⟩, hhsl, hrgb, -, -, hgrey, -,
    hturn⟩ := hsl_roundTrip hdigits
  have hred' : c.red = 255 := hred
  have hgreen' : c.green = 0 := hgreen
  have hblue' : c.blue = 1 := hblue
  obtain rfl := hturn (by omega) (by omega)
  obtain ⟨hrg, hgb, -⟩ := hgrey rfl
  rw [← hgb, ← hrg] at hrgb
  exact ⟨hdigits, saturation, lightness, n .red, hhsl, hrgb⟩

/-- It is written with a full turn, and comes back black. -/
theorem almostRed_turnsBlack :
    (convert? ⟨Form.hsl.name, true⟩ "#ff0001".toList).value
        = some "hsl(360, 100%, 50%)".toList ∧
      (convert? ⟨Form.rgb.name, true⟩ "hsl(360, 100%, 50%)".toList).value
        = some (Rgb.text 0 0 0) ∧
      ¬ |(0 : ℤ) - hexValue "ff".toList| ≤ 3 := by
  refine ⟨by decide +kernel, by decide +kernel, by decide +kernel⟩

end Color

end Swatch
