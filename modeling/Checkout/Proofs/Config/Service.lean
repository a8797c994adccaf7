import Checkout.Pipeline.Launch
import Checkout.Proofs.Json.Size
import Checkout.Proofs.Text.Unsigned

/-!
# Launching what the settings describe

Settings are read from an environment exactly if its variables describe them
(`ofEnvironment_eq_ok_iff`). What is described always has some time between its ticks and a place in
its queue, but the queue may have more places than there can be. So the pipeline of settings that
are accepted is launched with just the places, the ticks and the limit that they say, or it is not
launched at all, for its queue is too large (`launch_ofEnvironment`). There are such settings
(`accepted_without_launch`).
-/

namespace Checkout

/-! ## Numbers in the environment -/

namespace Environment

variable {e : Environment} {name : String} {bound default n : Nat}

/-- The variable names the number: the one below the bound that its text writes, white space aside,
or the one that stands for it if it is not set. -/
inductive Names (e : Environment) (name : String) (bound default : Nat) : Nat → Prop
  | unset (h : e.text? name = none) : Names e name bound default default
  | written {text : String} {n : Nat} (h : e.text? name = some text)
      (hn : Text.WritesUnsigned (Text.trim text.toList) n) (hlt : n < bound) :
      Names e name bound default n

theorem Names.lt (h : e.Names name bound default n) (hdefault : default < bound) : n < bound := by
  cases h with
  | unset => exact hdefault
  | written _ _ hlt => exact hlt

theorem names_iff_of_set {text : String} (h : e.text? name = some text) :
    e.Names name bound default n ↔
      Text.WritesUnsigned (Text.trim text.toList) n ∧ n < bound := by
  constructor
  · rintro (hunset | ⟨htext, hn, hlt⟩)
    · rw [h] at hunset
      cases hunset
    · rw [h] at htext
      cases htext
      exact ⟨hn, hlt⟩
  · rintro ⟨hn, hlt⟩
    exact .written h hn hlt

/-- **A number is read exactly if the variable names it.** -/
theorem number_eq_ok_iff (hpos : 0 < bound) :
    e.number name bound default = .ok n ↔ e.Names name bound default n := by
  unfold number
  cases htext : e.text? name with
  | none =>
      constructor
      · intro h
        cases h
        exact .unset htext
      · rintro (- | ⟨h, -, -⟩)
        · rfl
        · rw [htext] at h
          cases h
  | some text =>
      rw [names_iff_of_set htext, ← Text.unsigned_eq_ok_iff hpos]
      dsimp only
      cases Text.unsigned bound (Text.trim text.toList) <;> simp

end Environment

/-! ## Settings of the service -/

namespace ServiceConfig

variable {e : Environment} {c : ServiceConfig}

/-- The variables of the environment describe the settings. -/
structure Describes (e : Environment) (c : ServiceConfig) : Prop where
  tick : e.Names "CHECKOUT_TICK_MS" UInt64.size 300 c.tick
  tick_pos : 0 < c.tick
  capacity : e.Names "CHECKOUT_QUEUE_CAPACITY" UInt64.size 1024 c.capacity
  capacity_pos : 0 < c.capacity
  timeout : e.Names "CHECKOUT_TIMEOUT_MS" UInt64.size 3000 c.timeout
  /-- There is a limit on batches exactly if a number other than zero is named. -/
  maxBatch : ∃ n, e.Names "CHECKOUT_MAX_BATCH_SIZE" UInt64.size 0 n ∧
    c.maxBatch = if n = 0 then none else some n
  address : SocketAddress.ofString? (e.textOr "SERVER_ADDR" "0.0.0.0:3000") = some c.address

theorem positive_eq_ok_iff {name : String} {bound default n : Nat} (hpos : 0 < bound) :
    positive e name bound default = .ok n ↔ e.Names name bound default n ∧ 0 < n := by
  unfold positive
  rw [bind_eq_ok_iff]
  constructor
  · rintro ⟨m, hm, h⟩
    split at h
    · cases h
    next hne =>
      cases h
      exact ⟨(Environment.number_eq_ok_iff hpos).mp hm, Nat.pos_of_ne_zero hne⟩
  · rintro ⟨hnames, hn⟩
    refine ⟨n, (Environment.number_eq_ok_iff hpos).mpr hnames, ?_⟩
    rw [if_neg (Nat.ne_of_gt hn)]
    rfl

/-- **Settings are accepted exactly if the environment describes them.** -/
theorem ofEnvironment_eq_ok_iff : ofEnvironment e = .ok c ↔ Describes e c := by
  have hpos : 0 < UInt64.size := by decide
  unfold ofEnvironment
  simp only [bind_eq_ok_iff, positive_eq_ok_iff hpos, Environment.number_eq_ok_iff hpos]
  constructor
  · rintro ⟨tick, ⟨htick, htick₀⟩, capacity, ⟨hcapacity, hcapacity₀⟩, timeout, htimeout, n, hn, h⟩
    split at h
    · cases h
    next address haddress =>
      cases h
      exact ⟨htick, htick₀, hcapacity, hcapacity₀, htimeout, ⟨n, hn, rfl⟩, haddress⟩
  · rintro ⟨htick, htick₀, hcapacity, hcapacity₀, htimeout, ⟨n, hn, hmaxBatch⟩, haddress⟩
    refine ⟨_, ⟨htick, htick₀⟩, _, ⟨hcapacity, hcapacity₀⟩, _, htimeout, n, hn, ?_⟩
    rw [haddress, ← hmaxBatch]
    rfl

end ServiceConfig

/-! ## Launching -/

namespace Pipeline

/-- A queue with places and ticks with time between them can be launched, unless the queue has too
many places. -/
theorem launch_of_pos {config : PipelineConfig} (hcapacity : 0 < config.capacity)
    (htick : 0 < config.tick) (memory : Memory) :
    launch config memory =
      if config.capacity ≤ Gateway.mostPlaces then .ok (new config memory).start
      else .error (.tooMuchRoom config.capacity) := by
  have hroom : (new config memory).gateway.capacity = config.capacity := Nat.max_eq_left hcapacity
  unfold launch
  dsimp only
  rw [hroom, Gateway.checkRoom, if_neg (Nat.ne_of_gt hcapacity), checkPeriod,
    if_neg (Nat.ne_of_gt htick)]
  by_cases hmost : config.capacity ≤ Gateway.mostPlaces
  · rw [if_neg (Nat.not_lt_of_le hmost), if_pos hmost]
    rfl
  · rw [if_pos (Nat.lt_of_not_le hmost), if_neg hmost]
    rfl

end Pipeline

namespace ServiceConfig

/-- **What is accepted is launched as it says, unless its queue is too large.** An environment that
describes no settings is refused. Otherwise the pipeline has the places, the time between ticks and
the limit that are described, and it can be launched exactly if a queue can have so many places. -/
theorem launch_ofEnvironment (e : Environment) (memory : Memory) :
    match ofEnvironment e with
    | .error _ => ∀ c, ¬ Describes e c
    | .ok c => Describes e c ∧
      ∃ p : Pipeline,
        Pipeline.launch c.pipeline memory =
          (if c.capacity ≤ Gateway.mostPlaces then .ok p else .error (.tooMuchRoom c.capacity)) ∧
        p.gateway.capacity = c.capacity ∧ p.phase = .running c.tick ∧
        p.config.maxBatch = c.maxBatch ∧ p.gateway.timeout = c.timeout := by
  cases h : ofEnvironment e with
  | error fault =>
      intro c hc
      rw [ofEnvironment_eq_ok_iff.mpr hc] at h
      cases h
  | ok c =>
      have hc := ofEnvironment_eq_ok_iff.mp h
      refine ⟨hc, _, Pipeline.launch_of_pos hc.capacity_pos hc.tick_pos memory, ?_, ?_, rfl, rfl⟩
      · exact Nat.max_eq_left hc.capacity_pos
      · show Phase.running (0 + max c.tick 1) = _
        rw [Nat.max_eq_left hc.tick_pos, Nat.zero_add]

/-! ## Settings that are accepted in vain -/

/-- A queue of 2305843009213693952 places, which is one more than there can be. -/
def vast : Environment := ⟨[("CHECKOUT_QUEUE_CAPACITY", "2305843009213693952".toUTF8)]⟩

/-- **Not all that is accepted can be launched.** -/
theorem accepted_without_launch :
    ∃ c, ofEnvironment vast = .ok c ∧ c.capacity = 2305843009213693952 ∧
      Pipeline.launch c.pipeline .empty = .error (.tooMuchRoom 2305843009213693952) :=
  ⟨⟨300, 2305843009213693952, 3000, none, .v4 ⟨0, 0, 0, 0⟩ 3000⟩, rfl, rfl, rfl⟩

end ServiceConfig

end Checkout
