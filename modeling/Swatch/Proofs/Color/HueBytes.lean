import Swatch.Proofs.Binary64.Rounding
import Swatch.Proofs.Color.HslError
/-!
The bytes of an integer hue with a saturation and a lightness.

* `Hue.toBytes_eq`: the channels by the sixth of the wheel, apart from their rounding.
* `Hue.exists_sixths`, `Hue.remainderTwo_near`: the hue in sixths and what it leaves of two are near
  the exact ones.
* `Hue.toBytes_near`: on the wheel, the bytes are at most half a byte from the exact channels, but
  for the errors of rounding.
* `Hue.toBytes_fullTurn`: a full turn is off the wheel, and gives a grey.
-/

namespace Swatch

open Binary64

namespace Hue

/-! ### The steps -/

/-- The channels above the smallest, by the sixth of the wheel. -/
def sextantNumbers (full middle : Binary64) : Option Nat → Binary64 × Binary64 × Binary64
  | some 0 => (full, middle, 0)
  | some 1 => (middle, full, 0)
  | some 2 => (0, full, middle)
  | some 3 => (0, middle, full)
  | some 4 => (middle, 0, full)
  | some 5 => (full, 0, middle)
  | _ => (0, 0, 0)

/-- How far the largest channel stands above the smallest. -/
def chroma (saturation lightness : Binary64) : Binary64 :=
  (1 - (2 * lightness - 1).abs) * saturation

/-- The byte of a channel that stands above the smallest one. -/
def toByte (base above : Binary64) : Except Fault ℤ := ((above + base) * 255).roundHalfUp

lemma toBytes_eq (h : Hue) (saturation lightness : Binary64) :
    h.toBytes saturation lightness = do
      let full := chroma saturation lightness
      let sixths ← h.sixths
      let above := sextantNumbers full (full * (1 - (sixths.remainderTwo - 1).abs)) h.sextant?
      let base := lightness - full / 2
      let red ← toByte base above.1
      let green ← toByte base above.2.1
      let blue ← toByte base above.2.2
      return (red, green, blue) := rfl

/-! ### The hue in sixths -/

section Sixths

variable {h : Nat}

lemma sixths_eq {n : ℤ} {x : Binary64}
    (hx : round (decide (n < 0)) (n.natAbs * unitsPerOne) 60 = x) (hfinite : x.isFinite = true) :
    (Hue.whole n).sixths = .ok x := by
  obtain ⟨negative, units, hgrid, rfl⟩ := exists_finite hfinite
  -- opened with rounding held abstract: a test on the quotient itself would be computed
  obtain ⟨f, hf⟩ : ∃ f, f = sixths := ⟨_, rfl⟩
  obtain ⟨rounded, hrounded⟩ : ∃ rounded, rounded = Binary64.round := ⟨_, rfl⟩
  rw [← hf]
  delta sixths at hf
  rw [← hrounded] at hf hx
  rw [hf]
  simp only [hx]

lemma exists_sixths (hh : h ≤ 360) : ∃ x, (Hue.whole h).sixths = .ok x ∧ x.Unsigned ∧
    IsRounded ((h : ℚ) / 60) x := by
  have hround := isRounded_round false (h * unitsPerOne) (by norm_num : 0 < 60)
  have hvalue : (signed false (h * unitsPerOne) : ℚ) / (60 : Nat) / unitsPerOne = h / 60 := by
    have hU := unitsPerOne_cast_pos.ne'
    rw [signed_false]
    push_cast
    field_simp
  rw [hvalue] at hround
  have hsixths : (h : ℚ) / 60 ≤ (6 : Nat) := by
    rw [div_le_iff₀ (by norm_num)]
    exact_mod_cast hh
  have hfinite := (hround.between (representable_natCast (n := 0) (by norm_num))
    (representable_natCast (n := 6) (by norm_num)) (by simpa using by positivity) hsixths).isFinite
  have hsign : decide ((h : ℤ) < 0) = false := decide_eq_false (by omega)
  have hunsigned := unsigned_round (h * unitsPerOne) 60
  refine ⟨_, sixths_eq ?_ hfinite, hunsigned, hround⟩
  rw [hsign, Int.natAbs_natCast]

/-- What the hue in sixths leaves of two is near what the exact one leaves. -/
lemma remainderTwo_near {x : Binary64} (hh : h < 360) (hx : x.Unsigned)
    (hround : IsRounded ((h : ℚ) / 60) x) :
    Near 1 ((h : ℚ) / 60 - 2 * (h / 60 / 2 : Nat)) x.remainderTwo := by
  have hbelow : (h : ℚ) / 60 ≤ 6 := by
    rw [div_le_iff₀ (by norm_num)]
    exact_mod_cast (by omega : h ≤ 360)
  have hnear := hround.near (k := 0) (q := (h : ℚ) / 60) (by simp) (by norm_num)
    (abs_le.mpr ⟨by have : (0 : ℚ) ≤ (h : ℚ) / 60 := by positivity
                    linarith, by linarith⟩)
  obtain ⟨negative, units, hgrid, rfl⟩ := exists_finite hnear.isFinite
  cases (hx : negative = false)
  -- rounding passes no even number of sixths
  have hlow : ((2 * (h / 60 / 2) : Nat) : ℚ) ≤ value (.finite false units hgrid) := by
    have hle : ((2 * (h / 60 / 2) : Nat) : ℚ) ≤ (h : ℚ) / 60 := by
      rw [le_div_iff₀ (by norm_num)]
      exact_mod_cast (by omega : 2 * (h / 60 / 2) * 60 ≤ h)
    exact (hround.between (representable_natCast (by omega))
      (representable_natCast (n := 6) (by norm_num)) hle (by exact_mod_cast hbelow)).le_value
  have hhigh : value (.finite false units hgrid) < ((2 * (h / 60 / 2 + 1) : Nat) : ℚ) := by
    have hstep : (h : ℚ) / 60 + 1 / 60 ≤ ((2 * (h / 60 / 2 + 1) : Nat) : ℚ) := by
      rw [← add_div, div_le_iff₀ (by norm_num)]
      exact_mod_cast (by omega : h + 1 ≤ 2 * (h / 60 / 2 + 1) * 60)
    have herror := (abs_le.mp hnear.abs_sub_le).2
    have hsmall : roundoff * 2 ^ 20 ≤ 1 := by norm_num [roundoff]
    push_cast at herror ⊢ hstep
    linarith
  have hquotient : units / (2 * unitsPerOne) = h / 60 / 2 := by
    have hU := unitsPerOne_cast_pos
    rw [value, signed_false, Int.cast_natCast, le_div_iff₀ hU] at hlow
    rw [value, signed_false, Int.cast_natCast, div_lt_iff₀ hU] at hhigh
    have hlow' : 2 * (h / 60 / 2) * unitsPerOne ≤ units := by exact_mod_cast hlow
    have hhigh' : units < 2 * (h / 60 / 2 + 1) * unitsPerOne := by exact_mod_cast hhigh
    refine Nat.div_eq_of_lt_le ?_ ?_
    · linarith
    · linarith
  obtain ⟨hfinite, hvalue⟩ := value_remainderTwo hgrid
  rw [hquotient] at hvalue
  refine ⟨hfinite, ?_⟩
  rw [hvalue, sub_sub_sub_cancel_right]
  exact hnear.abs_sub_le

end Sixths

/-! ### The channels -/

/-- The numbers of the channels are as near as those of the full and the middle one. -/
lemma sextantNumbers_near {a k : Nat} (hk : k < 6) {p q : ℚ} {full middle : Binary64}
    (hfull : Near a p full) (hmiddle : Near a q middle) (x : Channel) :
    Near a (ExactHsl.sextantChannels p q k x)
      (Channel.pick (sextantNumbers full middle (some k)).1
        (sextantNumbers full middle (some k)).2.1 (sextantNumbers full middle (some k)).2.2 x) := by
  have hzero : Near a 0 (0 : Binary64) := near_zero.mono (Nat.zero_le a)
  interval_cases k <;> cases x <;> first | exact hfull | exact hmiddle | exact hzero

lemma chroma_near {c : ExactHsl} (hc : c.InRange) {s l : Binary64} (hs : Near 2 c.saturation s)
    (hl : Near 2 c.lightness l) : Near 12 c.chroma (chroma s l) := by
  obtain ⟨hl0, hl1⟩ := hc.lightness
  obtain ⟨hroom0, hroom1⟩ := ExactHsl.one_sub_abs_mem hc.lightness
  have habs {p : ℚ} (h0 : 0 ≤ p) (h1 : p ≤ 1) : |p| ≤ 1 := abs_le.mpr ⟨by linarith, h1⟩
  have htwice : Near 6 (2 * c.lightness) (2 * l) :=
    (near_ofNat (n := 2) (by norm_num)).mul (k := 2) (l := 1) hl (by norm_num)
      (by simpa using habs hl0 hl1) (by norm_num) (by norm_num) (by norm_num) (by norm_num)
  have hcentred : Near 7 (2 * c.lightness - 1) (2 * l - 1) :=
    htwice.sub near_one (by norm_num) (abs_le.mpr ⟨by linarith, by linarith⟩)
  have hroom : Near 8 (1 - |2 * c.lightness - 1|) (1 - (2 * l - 1).abs) :=
    near_one.sub hcentred.abs (by norm_num) (by linarith [habs hroom0 hroom1])
  exact hroom.mul (k := 1) (l := 1) hs (by simpa using habs hroom0 hroom1)
    (by simpa using habs hc.saturation.1 hc.saturation.2) (by norm_num) (by norm_num)
    (by norm_num) (by norm_num)

/-- The smallest channel. -/
lemma base_near {c : ExactHsl} (hc : c.InRange) {s l : Binary64} (hs : Near 2 c.saturation s)
    (hl : Near 2 c.lightness l) :
    Near 16 (c.lightness - c.chroma / 2) (l - chroma s l / 2) := by
  obtain ⟨h0, h1⟩ := hc.chroma_mem
  have hhalf := (chroma_near hc hs hl).div_ofNat (n := 2) (by norm_num) (by norm_num) (by norm_num)
    (abs_le.mpr ⟨by linarith, by linarith⟩)
  refine hl.sub hhalf (by norm_num) (abs_le.mpr ⟨?_, ?_⟩) <;> push_cast <;>
    linarith [hc.lightness.1, hc.lightness.2]

/-- A byte is at most half a byte from the exact channel, but for the errors of rounding. -/
lemma exists_toByte {p q : ℚ} {above base : Binary64} (habove : Near 17 p above)
    (hbase : Near 16 q base) (hpq : |p + q| ≤ 2) :
    ∃ n : ℤ, toByte base above = .ok n ∧ |(n : ℚ) - 255 * (p + q)| ≤ 1 / 2 + 1 / 2 ^ 20 := by
  have hsum : Near 34 (p + q) (above + base) :=
    habove.add hbase (by norm_num) (hpq.trans (by norm_num))
  have hscaled := (hsum.mul (k := 2) (l := 255) (near_ofNat (n := 255) (by norm_num))
    (by simpa using hpq) (by norm_num) (by norm_num) (by norm_num) (by norm_num) (by norm_num))
  obtain ⟨n, hn, hlow, hhigh⟩ := exists_nearest_int hscaled.isFinite
  have herror := abs_le.mp (hscaled.abs_sub_le_of_le (by norm_num))
  refine ⟨n, hn, abs_le.mpr ?_⟩
  push_cast at herror
  constructor <;> linarith [herror.1, herror.2]

/-- **The bytes of an integer hue**: on the wheel, each is at most half a byte from the exact
channel, but for the errors of rounding. -/
theorem toBytes_near {h : Nat} (hh : h < 360) {c : ExactHsl} (hc : c.InRange)
    (hhue : c.hue = h / 60) {s l : Binary64} (hs : Near 2 c.saturation s)
    (hl : Near 2 c.lightness l) :
    ∃ n : Channel → ℤ, (Hue.whole h).toBytes s l = .ok (n .red, n .green, n .blue) ∧
      ∀ x, |(n x : ℚ) - 255 * c.channel x| ≤ 1 / 2 + 1 / 2 ^ 20 := by
  have hk : h / 60 < 6 := by omega
  have hsextant : (Hue.whole h).sextant? = some (h / 60) := by
    rw [sextant?, if_pos (by omega), Int.toNat_natCast]
  obtain ⟨x, hx, hunsigned, hround⟩ := exists_sixths hh.le
  have hrest := remainderTwo_near hh hunsigned hround
  have hlow : ((h / 60 : Nat) : ℚ) ≤ h / 60 := Nat.cast_div_le
  have hhigh : (h : ℚ) / 60 ≤ (h / 60 : Nat) + 1 := by
    rw [div_le_iff₀ (by norm_num)]
    exact_mod_cast (by omega : h ≤ (h / 60 + 1) * 60)
  set middle : ℚ := 1 - |(h : ℚ) / 60 - 2 * (h / 60 / 2 : Nat) - 1| with hmiddle
  have hmem : 0 ≤ middle ∧ middle ≤ 1 := by
    rw [hmiddle, ExactHsl.middle_eq hlow hhigh]
    split_ifs <;> constructor <;> linarith
  have habs {p : ℚ} (hp : 0 ≤ p ∧ p ≤ 1) : |p| ≤ 1 := abs_le.mpr ⟨by linarith [hp.1], hp.2⟩
  have hfull := chroma_near hc hs hl
  have hchroma := hc.chroma_mem
  have hpart : Near 17 (c.chroma * middle)
      (chroma s l * (1 - (x.remainderTwo - 1).abs)) := by
    have hcentred : |(h : ℚ) / 60 - 2 * (h / 60 / 2 : Nat) - 1| ≤ 1 := by linarith [hmem.1]
    have hoff := hrest.sub near_one (by norm_num) (by linarith)
    have hrise := near_one.sub hoff.abs (by norm_num) ((habs hmem).trans (by norm_num))
    exact hfull.mul (k := 1) (l := 1) hrise (by simpa using habs hchroma) (by simpa using habs hmem)
      (by norm_num) (by norm_num) (by norm_num) (by norm_num)
  have hbase := base_near hc hs hl
  have habove := sextantNumbers_near hk (hfull.mono (by norm_num)) hpart
  have hchannel (y : Channel) : c.channel y
      = ExactHsl.sextantChannels c.chroma (c.chroma * middle) (h / 60) y
        + (c.lightness - c.chroma / 2) := by
    rw [ExactHsl.channel, hhue, ExactHsl.weight_eq_sextantChannels hk hlow hhigh,
      ← ExactHsl.middle_eq hlow hhigh, ← hmiddle, ExactHsl.mul_sextantChannels hk]
    ring
  have hbyte (y : Channel) := exists_toByte (habove y) hbase (by
    rw [← hchannel]
    exact (habs (hc.channel_mem y)).trans (by norm_num))
  choose n hn hnear using hbyte
  refine ⟨n, ?_, fun y => ?_⟩
  · rw [toBytes_eq, hx, hsextant]
    exact bind_eq_ok.mpr ⟨x, rfl, bind_eq_ok.mpr ⟨_, hn .red, bind_eq_ok.mpr ⟨_, hn .green,
      bind_eq_ok.mpr ⟨_, hn .blue, rfl⟩⟩⟩⟩
  · rw [hchannel]
    exact hnear y

/-- A full turn is off the wheel, and gives a grey: every channel is the smallest one. -/
theorem toBytes_fullTurn {c : ExactHsl} (hc : c.InRange) {s l : Binary64}
    (hs : Near 2 c.saturation s) (hl : Near 2 c.lightness l) :
    ∃ n : ℤ, (Hue.whole (360 : Nat)).toBytes s l = .ok (n, n, n) ∧
      |(n : ℚ) - 255 * (c.lightness - c.chroma / 2)| ≤ 1 / 2 + 1 / 2 ^ 20 := by
  obtain ⟨x, hx, -, -⟩ := exists_sixths (h := 360) le_rfl
  have hsextant : (Hue.whole (360 : Nat)).sextant? = none := by
    rw [sextant?, if_neg (by norm_num)]
  have hzero : Near 17 0 (0 : Binary64) := near_zero.mono (by norm_num)
  have hchroma := hc.chroma_mem
  have hbase := base_near hc hs hl
  obtain ⟨n, hn, hnear⟩ := exists_toByte hzero hbase
    (abs_le.mpr ⟨by linarith [hc.lightness.1], by linarith [hc.lightness.2]⟩)
  rw [zero_add] at hnear
  refine ⟨n, ?_, hnear⟩
  rw [toBytes_eq, hx, hsextant]
  exact bind_eq_ok.mpr ⟨x, rfl, bind_eq_ok.mpr ⟨_, hn, bind_eq_ok.mpr ⟨_, hn,
    bind_eq_ok.mpr ⟨_, hn, rfl⟩⟩⟩⟩

end Hue

end Swatch
