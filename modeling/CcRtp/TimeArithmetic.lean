/-
# Arithmetic on `timeval`

Seconds and microseconds, with `timeradd` and `timersub`, and their value in microseconds.  Where a
difference of two times is put into a machine word, it is the difference of the values modulo the
size of the word.

* `micros_timeradd`, `micros_timersub` : the two operations add and subtract the values;
* `Timeval.Normal.ext` : times with less than a second of microseconds are equal if their values
  are;
* `ofInt_sub_eq` : the difference in a machine word.
-/
import Mathlib.Tactic.Ring
import Mathlib.Data.Int.Basic

/-- `timeval`; the seconds are 64 bits wide and do not overflow. -/
structure Timeval where
  sec : ℤ
  usec : ℤ

/-- `timeradd`: one carry at most. -/
def timeradd (a b : Timeval) : Timeval :=
  if a.usec + b.usec ≥ 1000000 then ⟨a.sec + b.sec + 1, a.usec + b.usec - 1000000⟩
  else ⟨a.sec + b.sec, a.usec + b.usec⟩

/-- `timersub` -/
def timersub (a b : Timeval) : Timeval :=
  if a.usec - b.usec < 0 then ⟨a.sec - b.sec - 1, a.usec - b.usec + 1000000⟩
  else ⟨a.sec - b.sec, a.usec - b.usec⟩

namespace Timeval

/-- The value in microseconds. -/
def micros (t : Timeval) : ℤ := t.sec * 1000000 + t.usec

/-- Less than a second of microseconds. -/
structure Normal (t : Timeval) : Prop where
  nonneg : 0 ≤ t.usec
  lt : t.usec < 1000000

/-- Such times are equal if their values are. -/
theorem Normal.ext {a b : Timeval} (ha : a.Normal) (hb : b.Normal) (h : a.micros = b.micros) :
    a = b := by
  obtain ⟨ha, ha'⟩ := ha
  obtain ⟨hb, hb'⟩ := hb
  unfold micros at h
  have hsec : a.sec = b.sec := by omega
  have husec : a.usec = b.usec := by omega
  cases a
  cases b
  subst hsec husec
  rfl

end Timeval

/-- **`timeradd`** adds the values. -/
@[simp] theorem micros_timeradd (a b : Timeval) : (timeradd a b).micros = a.micros + b.micros := by
  unfold timeradd Timeval.micros
  split_ifs
  · dsimp only
    ring
  · dsimp only
    ring

/-- **`timersub`** subtracts the values. -/
@[simp] theorem micros_timersub (a b : Timeval) : (timersub a b).micros = a.micros - b.micros := by
  unfold timersub Timeval.micros
  split_ifs
  · dsimp only
    ring
  · dsimp only
    ring

theorem normal_timeradd {a b : Timeval} (ha : a.Normal) (hb : b.Normal) :
    (timeradd a b).Normal := by
  obtain ⟨ha, ha'⟩ := ha
  obtain ⟨hb, hb'⟩ := hb
  unfold timeradd
  split_ifs
  · exact ⟨by dsimp only; omega, by dsimp only; omega⟩
  · exact ⟨by dsimp only; omega, by dsimp only; omega⟩

theorem normal_timersub {a b : Timeval} (ha : a.Normal) (hb : b.Normal) :
    (timersub a b).Normal := by
  obtain ⟨ha, ha'⟩ := ha
  obtain ⟨hb, hb'⟩ := hb
  unfold timersub
  split_ifs
  · exact ⟨by dsimp only; omega, by dsimp only; omega⟩
  · exact ⟨by dsimp only; omega, by dsimp only; omega⟩

/-- `timeradd` gains the seconds of the second operand. -/
theorem sec_add_le_timeradd (a b : Timeval) : a.sec + b.sec ≤ (timeradd a b).sec := by
  unfold timeradd
  split_ifs
  · exact Int.le_of_lt (Int.lt_add_one_of_le le_rfl)
  · exact le_rfl

/-- A difference of times in a machine word, as the code forms it field by field. -/
theorem ofInt_sub_eq (w : ℕ) (a b : Timeval) :
    BitVec.ofInt w ((a.sec - b.sec) * 1000000 + (a.usec - b.usec))
      = BitVec.ofInt w (a.micros - b.micros) := by
  congr 1
  unfold Timeval.micros
  ring
