import TinySox.ConfiguredUser

/-!
# The timeouts of connection attempts

The attempts of a handshake share the time of `-cmax`, and each gets at least the time of `-cmin`.
The check that should keep these two in order divides a number of seconds by 1000, and is made only
if `-cmax` is given. So the time of an attempt exceeds `-cmax` exactly if `-cmin` does.
-/

namespace TinySox

open TinySox.Common

/-- The microseconds of a timeout. -/
def Timeval.total (t : Timeval) : Int := t.tvSec * 1000000 + t.tvUsec

/-- The timeout of one of `ipCount` attempts is well formed and keeps to both limits, and the
product with the greater one fits into an `int`. -/
structure KeepsLimits (c : Config) (ipCount : ℕ) (t : Timeval) : Prop where
  usec : 0 ≤ t.tvUsec ∧ t.tvUsec < 1000000
  positive : 0 < t.total
  lower : c.minCTimeSec * 1000000 ≤ t.total
  upper : t.total ≤ c.maxCTimeSec * 1000000
  budget : ipCount * t.total ≤ max (c.maxCTimeSec * 1000000) (ipCount * (c.minCTimeSec * 1000000))
  noOverflow : -(2 ^ 31) ≤ c.maxCTimeSec * 1000000 ∧ c.maxCTimeSec * 1000000 < 2 ^ 31

/-- The limits lie in the ranges that the command line allows. -/
structure LimitsInRange (c : Config) : Prop where
  minCTime : 1 ≤ c.minCTimeSec ∧ c.minCTimeSec ≤ 60
  maxCTime : 0 ≤ c.maxCTimeSec ∧ c.maxCTimeSec ≤ 120

namespace Handshake

variable {cfg : Config} {ipCount : ℕ}

/-- A fair share of the greater limit, or the smaller limit if that is more. -/
def sharedTime (cfg : Config) (ipCount : ℕ) : Int :=
  max (cfg.minCTimeSec * 1000000) (cfg.maxCTimeSec * 1000000 / ipCount)

/-- With limits in range, nothing overflows and the division rounds down. -/
theorem connectTimeout_eq (hrange : LimitsInRange cfg) :
    connectTimeout cfg ipCount =
      ⟨sharedTime cfg ipCount / 1000000, sharedTime cfg ipCount % 1000000⟩ := by
  obtain ⟨⟨hmin, -⟩, hmax, hmax'⟩ := hrange
  have hfits : (cfg.maxCTimeSec * 1000000).bmod (2 ^ 32) = cfg.maxCTimeSec * 1000000 :=
    Int.bmod_eq_of_le (by omega) (by omega)
  have hshare : (cfg.maxCTimeSec * 1000000).tdiv ipCount = cfg.maxCTimeSec * 1000000 / ipCount :=
    Int.tdiv_eq_ediv_of_nonneg (by omega)
  have htime : (if cfg.maxCTimeSec * 1000000 / ipCount < cfg.minCTimeSec * 1000000
      then cfg.minCTimeSec * 1000000 else cfg.maxCTimeSec * 1000000 / ipCount) =
        sharedTime cfg ipCount := by
    rw [sharedTime]
    split_ifs with hless
    · exact (Int.max_eq_left (Int.le_of_lt hless)).symm
    · exact (Int.max_eq_right (Int.not_lt.mp hless)).symm
  have hpos : 0 ≤ sharedTime cfg ipCount := Int.le_trans (by omega) (Int.le_max_left _ _)
  unfold connectTimeout
  dsimp only
  rw [hfits, hshare, htime, Int.tdiv_eq_ediv_of_nonneg hpos]
  congr 1
  omega

/-- The timeout has as many microseconds as it should. -/
theorem total_connectTimeout (hrange : LimitsInRange cfg) :
    (connectTimeout cfg ipCount).total = sharedTime cfg ipCount := by
  rw [connectTimeout_eq hrange]
  exact Int.ediv_mul_add_emod _ _

/-- All shares together take no more time than they may. -/
theorem mul_sharedTime_le (cfg : Config) (hcount : 1 ≤ ipCount) :
    ipCount * sharedTime cfg ipCount ≤
      max (cfg.maxCTimeSec * 1000000) (ipCount * (cfg.minCTimeSec * 1000000)) := by
  have hne : (ipCount : Int) ≠ 0 := by omega
  rw [sharedTime]
  rcases Int.le_total (cfg.maxCTimeSec * 1000000 / (ipCount : Int)) (cfg.minCTimeSec * 1000000) with
    hmin | hshare
  · rw [Int.max_eq_left hmin]
    exact Int.le_max_right _ _
  · rw [Int.max_eq_right hshare]
    exact Int.le_trans (Int.mul_ediv_self_le hne) (Int.le_max_left _ _)

/-- Everything is as it should be if the limits are in order, and the upper limit is exceeded if
they are not. -/
theorem connectTimeout_keepsLimits_iff (hrange : LimitsInRange cfg) (hcount : 1 ≤ ipCount) :
    KeepsLimits cfg ipCount (connectTimeout cfg ipCount) ↔ cfg.minCTimeSec ≤ cfg.maxCTimeSec := by
  have htotal := @total_connectTimeout cfg ipCount hrange
  have hmin : cfg.minCTimeSec * 1000000 ≤ sharedTime cfg ipCount := Int.le_max_left _ _
  constructor
  · intro h
    have hupper := htotal ▸ h.upper
    omega
  · intro hle
    have hshare : cfg.maxCTimeSec * 1000000 / (ipCount : Int) ≤ cfg.maxCTimeSec * 1000000 :=
      Int.ediv_le_self _ (by have := hrange.maxCTime; omega)
    obtain ⟨⟨hpos, -⟩, -, hmax⟩ := id hrange
    constructor
    · rw [connectTimeout_eq hrange]
      exact ⟨Int.emod_nonneg _ (by decide), Int.emod_lt_of_pos _ (by decide)⟩
    · rw [htotal]
      omega
    · rw [htotal]
      exact hmin
    · rw [htotal]
      exact Int.max_le.mpr ⟨by omega, hshare⟩
    · rw [htotal]
      exact mul_sharedTime_le cfg hcount
    · omega

/-- Every attempt of a handshake has this timeout. -/
theorem timeout_of_perform {host : ByteOrder} {state : State} {req : Handshake.Request}
    {t : List (Event JobOp.Answer)} {target : IPEndpoint} {timeout : Timeval}
    {k : ℕ → HandshakeProg Attempt}
    (hrun : (perform cfg host state req).follow t =
      some (.call (.connectAndCreateHandler target timeout) k)) :
    timeout = connectTimeout cfg req.destIPs.length := by
  let P (o : JobOp) : Prop := ∀ target timeout, o = .connectAndCreateHandler target timeout →
    timeout = connectTimeout cfg req.destIPs.length
  have hP {o : JobOp} (ho : o.IsAccounting) : P o := by
    rintro target timeout rfl
    exact ho.elim
  have hdial : ∀ ip ∈ req.destIPs, P (.connectAndCreateHandler ⟨ip, req.port⟩
      (connectTimeout cfg req.destIPs.length)) := by
    intro ip _ target timeout h
    exact (JobOp.connectAndCreateHandler.inj h).2.symm
  exact Contract.Performs.of_follow (performs_perform hP hdial) hrun _ _ rfl

/-- A request to connect with an address leads to an attempt. -/
theorem first_attempt {host : ByteOrder} {state : State} {req : Request} (hcmd : req.cmd = 0x01)
    (hips : req.destIPs ≠ []) : ∃ target k, (perform cfg host state req).follow [] =
      some (.call (.connectAndCreateHandler target (connectTimeout cfg req.destIPs.length)) k) := by
  rw [perform, if_pos hcmd]
  cases hdest : req.destIPs with
  | nil => exact absurd hdest hips
  | cons ip rest => exact ⟨⟨ip, req.port⟩, _, rfl⟩

end Handshake

section Options

variable {inet : InetPton} {argv0 : Bytes} {arguments : List Bytes} {s : MainState}

/-- A setting lies between the bounds of its check, if its default does. -/
theorem NumericOption.inRange_setting {look : Bytes → Option Bytes} {option : NumericOption}
    (haccepted : option.accepted look = true)
    (hdefault : option.InRange look option.documentedDefault) :
    option.InRange look (option.setting look) := by
  cases hgiven : look option.name with
  | none =>
    rw [setting_of_none hgiven]
    exact hdefault
  | some text =>
    rw [accepted, hgiven, inBounds, Option.all_some, decide_eq_true_eq] at haccepted
    rw [setting_of_given hgiven]
    exact haccepted

/-- An accepted command line passes the check of every option behind `-ws`. -/
theorem accepted_of_mainOptions (hmain : mainOptions inet argv0 arguments = .ok s)
    {option : NumericOption}
    (hmem : option.check (given arguments) ∈ checksAfter inet (given arguments)) :
    option.accepted (given arguments) = true :=
  (mainOptions_ok hmain).2.1 _ (List.mem_append_right _ (List.mem_cons_of_mem _ hmem))

/-- `main` accepts limits in these ranges only. -/
theorem limitsInRange_of_mainOptions (hmain : mainOptions inet argv0 arguments = .ok s) :
    LimitsInRange s.config.toConfig := by
  have hmin : 1 ≤ NumericOption.cmin.setting (given arguments) ∧
      NumericOption.cmin.setting (given arguments) ≤ 60 :=
    NumericOption.inRange_setting (accepted_of_mainOptions hmain (by simp [checksAfter]))
      ⟨by simp [NumericOption.lower, NumericOption.documentedDefault],
        by simp [NumericOption.upper, NumericOption.documentedDefault]⟩
  -- the seconds of the smaller limit are divided as if they were milliseconds
  have hlower : NumericOption.cmax.lower (given arguments) = 0 :=
    Int.tdiv_eq_zero_of_lt (by omega) (by omega)
  have hmax : NumericOption.cmax.InRange (given arguments) (NumericOption.cmax.setting (given arguments)) :=
    NumericOption.inRange_setting (accepted_of_mainOptions hmain (by simp [checksAfter]))
      ⟨by rw [hlower]; simp [NumericOption.documentedDefault],
        by simp [NumericOption.upper, NumericOption.documentedDefault]⟩
  rw [NumericOption.InRange, hlower] at hmax
  rw [(mainOptions_ok hmain).2.2]
  exact ⟨hmin, hmax⟩

/-- Connection-attempt timeouts respect both limits. After an accepted command line, every attempt
of a handshake that connects has a timeout as it should be, exactly if the value of `-cmin` is at
most that of `-cmax`. -/
theorem timeouts_keep_limits_iff (hmain : mainOptions inet argv0 arguments = .ok s) {req : Handshake.Request}
    (hcmd : req.cmd = 0x01) (hips : req.destIPs ≠ []) (host : ByteOrder) (state : State) :
    (∀ t target timeout k, (Handshake.perform s.config.toConfig host state req).follow t =
        some (.call (.connectAndCreateHandler target timeout) k) →
      KeepsLimits s.config.toConfig req.destIPs.length timeout) ↔
      NumericOption.cmin.setting (given arguments) ≤ NumericOption.cmax.setting (given arguments) := by
  have hrange := limitsInRange_of_mainOptions hmain
  have hcount : 1 ≤ req.destIPs.length := List.length_pos_of_ne_nil hips
  have hlimits := Handshake.connectTimeout_keepsLimits_iff hrange hcount
  rw [(mainOptions_ok hmain).2.2] at hlimits ⊢
  refine Iff.trans ⟨fun hall => ?_, fun hkeeps t target timeout k hrun => ?_⟩ hlimits
  · obtain ⟨target, k, hfirst⟩ := Handshake.first_attempt hcmd hips
    exact hall [] target _ k hfirst
  · rw [Handshake.timeout_of_perform hrun]
    exact hkeeps

end Options

/-- A request to connect to one address. -/
def oneAddress : Handshake.Request := ⟨0x01, [.ofRaw [10, 0, 0, 1]], 80⟩

/-- With half a minute for all attempts, the single attempt keeps to the limits. -/
theorem timeouts_keep_limits_half_minute : ∃ s,
    mainOptions loopbackOnly (ascii "tinysox") [ascii "-p", ascii "1080", ascii "-cmax", ascii "30"] =
      .ok s ∧
    ∀ t target timeout k, (Handshake.perform s.config.toConfig .little .empty oneAddress).follow t =
        some (.call (.connectAndCreateHandler target timeout) k) →
      KeepsLimits s.config.toConfig 1 timeout := by
  obtain ⟨s, hmain⟩ : ∃ s, mainOptions loopbackOnly (ascii "tinysox")
      [ascii "-p", ascii "1080", ascii "-cmax", ascii "30"] = .ok s := ⟨_, rfl⟩
  have horder : NumericOption.cmin.setting (given [ascii "-p", ascii "1080", ascii "-cmax", ascii "30"]) ≤
      NumericOption.cmax.setting (given [ascii "-p", ascii "1080", ascii "-cmax", ascii "30"]) := by decide
  exact ⟨s, hmain, (timeouts_keep_limits_iff hmain rfl (by decide) .little .empty).mpr horder⟩

/-- With three seconds for all attempts, a single attempt gets five; with a minute for each attempt,
it exceeds the twenty seconds that it would have otherwise. -/
theorem timeout_exceeds_limit :
    (∃ s, mainOptions loopbackOnly (ascii "tinysox")
        [ascii "-p", ascii "1080", ascii "-cmax", ascii "3"] = .ok s ∧
      s.config.maxCTimeSec = 3 ∧ Handshake.connectTimeout s.config.toConfig 1 = ⟨5, 0⟩ ∧
      ¬KeepsLimits s.config.toConfig 1 (Handshake.connectTimeout s.config.toConfig 1)) ∧
    ∃ s, mainOptions loopbackOnly (ascii "tinysox")
        [ascii "-p", ascii "1080", ascii "-cmin", ascii "60"] = .ok s ∧
      s.config.maxCTimeSec = 20 ∧ Handshake.connectTimeout s.config.toConfig 1 = ⟨60, 0⟩ := by
  refine ⟨⟨_, rfl, by decide, by decide, fun h => ?_⟩, _, rfl, by decide, by decide⟩
  exact absurd h.upper (by decide)

end TinySox
