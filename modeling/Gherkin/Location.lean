/-
  Gherkin.Location
  ────────────────
  **PLACES IN A FEATURE FILE.**

  Lines and columns are 32-bit words, so every `Location` is in range.
  `position` is the one way from an integer to such a word; it fails exactly
  outside the range (`position_eq_ok_iff`).
-/
import Gherkin.Issue

namespace Gherkin

/-- A line and a column. -/
structure Location where
  line : UInt32
  column : UInt32
  deriving DecidableEq

/-- An integer as a line or column number. -/
def position (n : Int) : Except Cause UInt32 :=
  if n < 0 then .error .belowZero
  else if (maxPosition : Int) < n then .error .aboveMaximum
  else .ok (UInt32.ofNat n.toNat)

/-- A line or column number as an integer. -/
def positionValue (p : UInt32) : Int := Int.ofNat p.toNat

theorem position_positionValue (p : UInt32) : position (positionValue p) = .ok p := by
  have h := p.toNat_lt
  have hlow : ¬ positionValue p < 0 := by simp only [positionValue, Int.ofNat_eq_natCast]; omega
  have hhigh : ¬ (maxPosition : Int) < positionValue p := by
    simp only [positionValue, maxPosition, Int.ofNat_eq_natCast]; omega
  rw [position, if_neg hlow, if_neg hhigh]
  simp [positionValue]

theorem position_eq_ok_iff {n : Int} {p : UInt32} :
    position n = .ok p ↔ n = positionValue p := by
  constructor
  · intro h
    unfold position at h
    split at h
    · cases h
    · split at h
      · cases h
      · cases h
        simp only [positionValue, maxPosition] at *
        rw [UInt32.toNat_ofNat']
        simp only [Int.ofNat_eq_natCast]
        omega
  · rintro rfl
    exact position_positionValue p

namespace Location

/-- The place as messages show it. -/
def text (l : Location) : String := toString l.line.toNat ++ ":" ++ toString l.column.toNat

/-- The place of something on a known line at a column that may be out of range. -/
def onLine (line : UInt32) (column : Int) : Except Rejection Location :=
  match position column with
  | .ok c => .ok ⟨line, c⟩
  | .error cause => .error ⟨"Location", [⟨[.key "column"], cause⟩]⟩

end Location

end Gherkin
