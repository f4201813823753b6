import LaneOrder.Proofs.Config
import LaneOrder.Proofs.Sql.Tenants

/-!
This module contains what becomes of the bound on waits for locks, from the span that a configuration is built with to the
setting that a transaction begins with. A configuration counts milliseconds in a machine word, and what does not fit in
there wraps.
-/

namespace LaneOrder

/-- A span that is rounded down to milliseconds. -/
def Duration.wholeMillis (d : Duration) : Duration :=
  ⟨d.seconds, d.nanos / 1000000 * 1000000, by have := d.isLt; omega⟩

theorem Duration.ofMillis_eq_wholeMillis {n : UInt64} {d : Duration} : ofMillis n = d.wholeMillis ↔ n.toNat = d.millis := by
  constructor
  . intro h
    rw [← millis_ofMillis, h]
    unfold millis wholeMillis
    simp
  . intro h
    have hseconds : n / 1000 = d.seconds := by
      rw [← UInt64.toNat_inj, UInt64.toNat_div]
      have := d.isLt
      unfold millis at h
      show n.toNat / 1000 = _
      omega
    unfold ofMillis wholeMillis
    rw [Duration.mk.injEq]
    have := d.isLt
    unfold millis at h
    exact ⟨hseconds, by omega⟩

namespace Config

variable {c : Config} {d : Duration}

theorem build_lockTimeout : build [.lockTimeout d] = .ok c ↔
    d.millis % UInt64.size ≠ 0 ∧ c = { lockTimeoutMillis := .ofNat d.millis } := by
  have hzero : UInt64.ofNat d.millis = 0 ↔ d.millis % UInt64.size = 0 := by
    rw [← UInt64.toNat_inj, UInt64.toNat_ofNat']
    rfl
  have hvalid : error? { lockTimeoutMillis := .ofNat d.millis } = none ↔ d.millis % UInt64.size ≠ 0 := by
    obtain ⟨hincrement, hepsilon, hbelow, -, hconnections⟩ := error?_eq_none.1 (show error? {} = none by decide +kernel)
    rw [error?_eq_none]
    constructor
    . rintro ⟨-, -, -, hmillis, -⟩
      exact hzero.not.1 hmillis
    . intro hmillis
      exact ⟨hincrement, hepsilon, hbelow, hzero.not.2 hmillis, hconnections⟩
  show checked { lockTimeoutMillis := .ofNat d.millis } = .ok c ↔ _
  rw [checked_eq_ok, hvalid, eq_comm (a := c)]

theorem millis_lockTimeout : c.lockTimeout.millis = c.lockTimeoutMillis.toNat :=
  Duration.millis_ofMillis _

end Config

namespace Sql

open Program

theorem lockTimeoutSetting_eq {timeout : Duration} (h : timeout.millis ≠ 0) :
    lockTimeoutSetting timeout = toString timeout.millis ++ "ms" := by
  unfold lockTimeoutSetting
  rw [Nat.max_eq_right (Nat.one_le_iff_ne_zero.2 h)]

/-- A bound on waits keeps its milliseconds modulo the size of a word, so it is kept if there are no more of them than fit in
one. What is kept is what every transaction begins with. -/
theorem begins_of_built {c : Config} {d : Duration} (h : Config.build [.lockTimeout d] = .ok c) :
    c.lockTimeout.millis = d.millis % UInt64.size
      ∧ (c.lockTimeout = d.wholeMillis ↔ d.millis < UInt64.size)
      ∧ ∀ T a, Ends (carryOut c.lockTimeout .begin) T a ↔ Begins (toString (d.millis % UInt64.size) ++ "ms") T a := by
  obtain ⟨hnonzero, rfl⟩ := Config.build_lockTimeout.1 h
  have hkept : (UInt64.ofNat d.millis).toNat = d.millis % UInt64.size := UInt64.toNat_ofNat'
  have hmillis := Config.millis_lockTimeout (c := { lockTimeoutMillis := .ofNat d.millis })
  rw [hkept] at hmillis
  refine ⟨hmillis, ?_, ?_⟩
  . unfold Config.lockTimeout
    rw [Duration.ofMillis_eq_wholeMillis, hkept]
    exact Nat.mod_eq_iff_lt (by decide)
  . intro T a
    rw [ends_begin_iff, lockTimeoutSetting_eq (hmillis ▸ hnonzero), hmillis]

/-- The longest span that is kept, and a part of a millisecond that is not. -/
def Sample.longest : Duration :=
  ⟨18446744073709551, 615999999, by decide⟩

theorem begins_of_built_longest : ∃ c, Config.build [.lockTimeout Sample.longest] = .ok c
    ∧ c.lockTimeout = Sample.longest.wholeMillis
    ∧ ∀ T a, Ends (carryOut c.lockTimeout .begin) T a ↔ Begins "18446744073709551615ms" T a := by
  have hbuilt : Config.build [.lockTimeout Sample.longest] = .ok { lockTimeoutMillis := 18446744073709551615 } :=
    Config.build_lockTimeout.2 ⟨by decide, rfl⟩
  obtain ⟨-, hkept, hbegins⟩ := begins_of_built hbuilt
  have hsetting : toString (Sample.longest.millis % UInt64.size) ++ "ms" = "18446744073709551615ms" := by decide +kernel
  rw [hsetting] at hbegins
  exact ⟨_, hbuilt, hkept.2 (by decide), hbegins⟩

/-- A bound of many million years becomes one of less than a second. -/
theorem long_lockTimeout_wraps : ∃ c, Config.build [.lockTimeout (.ofSeconds 18446744073709552)] = .ok c
    ∧ c.lockTimeout ≠ (Duration.ofSeconds 18446744073709552).wholeMillis
    ∧ c.lockTimeout.millis = 384
    ∧ ∀ T a, Ends (carryOut c.lockTimeout .begin) T a ↔ Begins "384ms" T a := by
  have hbuilt : Config.build [.lockTimeout (.ofSeconds 18446744073709552)] = .ok { lockTimeoutMillis := 384 } :=
    Config.build_lockTimeout.2 ⟨by decide, rfl⟩
  refine ⟨_, hbuilt, by decide, by decide, ?_⟩
  intro T a
  rw [ends_begin_iff]
  have hsetting : lockTimeoutSetting (Config.lockTimeout { lockTimeoutMillis := 384 }) = "384ms" := by decide +kernel
  rw [hsetting]

end Sql

end LaneOrder
