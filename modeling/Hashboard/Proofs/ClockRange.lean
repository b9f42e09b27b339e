import Mathlib.Logic.Basic
import Hashboard.DispatchLoop
import Hashboard.StandIn

/-!
# Times that the clock can show

A run adds its intervals to readings of the clock. Settings are checked for intervals that are too short, but not
for ones that are too long: how long they may be, so that none of these sums is beyond the clock while it reads
less than 2 ^ 32 seconds, is told by `times_fit_iff`.
-/

namespace Hashboard

/-! ## Single sums -/

theorem Duration.ofSecs_ne_zero {secs : Nat} (h : secs ≠ 0) : ofSecs secs ≠ 0 :=
  Nat.mul_ne_zero h (by decide)

namespace Instant

variable {t : Int} {span : Nat}

/-- The first reading beyond 2 ^ 32 seconds. -/
def early : Instant := 4294967296 * 1000000000

/-- The most whole seconds that can be added to all earlier readings. -/
def longest : Nat := 9223372036854775808 - 4294967296

theorem isSome_after? : (after? t span).isSome ↔ t + span < 9223372036854775808 * 1000000000 := by
  rw [after?, Option.isSome_ite, limit]

theorem eq_of_after? {later : Instant} (h : after? t span = some later) : later = t + span :=
  (Option.some.inj (Option.ite_none_right_eq_some.mp h).2).symm

theorem isSome_after?_of_le {secs : Nat} (ht : t < early) (h : secs ≤ longest) :
    (after? t (.ofSecs secs)).isSome := by
  rw [early] at ht
  rw [longest] at h
  rw [isSome_after?, Duration.ofSecs]
  omega

/-- The last of the early readings leaves no room for a second more. -/
theorem le_of_isSome_after? {secs : Nat} (h : (after? (early - 1) (.ofSecs secs)).isSome) : secs ≤ longest := by
  rw [isSome_after?, Duration.ofSecs, early] at h
  rw [longest]
  omega

/-- Microseconds that fit into a word are never too many. -/
theorem isSome_after?_ofMicros {micros : Nat} (ht : t < early) (h : micros < UInt64.size) :
    (after? t (.ofMicros micros)).isSome := by
  rw [early] at ht
  rw [UInt64.size] at h
  rw [isSome_after?, Duration.ofMicros]
  omega

end Instant

/-! ## Settings -/

namespace Settings

variable {o : Options} {s : Settings}

theorem lowerBounds_of_error? {slaves : List UInt16} (h : error? o slaves = none) :
    o.statsSecs ≠ 0 ∧ o.epochSecs ≠ 0 := by
  unfold error? at h
  split at h
  · cases h
  split at h
  · cases h
  rename_i hstats
  split at h
  · cases h
  rename_i hepoch
  exact ⟨hstats, hepoch⟩

theorem intervals_of_ofOptions (h : ofOptions o = .ok s) :
    s.pollMicros = o.pollMicros ∧ s.statsInterval = .ofSecs o.statsSecs ∧
      s.duration = o.durationSecs.map .ofSecs ∧ s.epochInterval = .ofSecs o.epochSecs ∧
      o.statsSecs ≠ 0 ∧ o.epochSecs ≠ 0 := by
  unfold ofOptions at h
  simp only at h
  cases he : error? o (if o.slaves.isEmpty = true then boardSlaves else o.slaves) with
  | some e =>
      rw [he] at h
      cases h
  | none =>
      rw [he] at h
      cases h
      obtain ⟨hstats, hepoch⟩ := lowerBounds_of_error? he
      exact ⟨rfl, rfl, rfl, rfl, hstats, hepoch⟩

end Settings

/-! ## Polls -/

namespace Poller

variable {p : Poller} {cycle : PollCycle} {queue : Guarded WorkQueue} {exchange : Exchange} {finished : PollFinished}
  {outcome : PollOutcome}

/-- A cycle is followed at once by the next one, or after the pause between polls. -/
theorem delay_of_finish (h : p.finish cycle queue exchange = some finished) (hok : finished.result = .ok outcome) :
    outcome.delay = 0 ∨ outcome.delay = p.interval := by
  cases exchange with
  | crashed => cases h
  | failed error =>
      obtain rfl := Option.some.inj h
      unfold finishFailed at hok
      split at hok
      · cases hok; exact Or.inr rfl
      · cases hok; exact Or.inr rfl
      · cases hok
  | received rx =>
      obtain rfl := Option.some.inj h
      cases queue with
      | poisoned => cases hok
      | sound q =>
          obtain rfl := Except.ok.inj hok
          exact ite_eq_or_eq ..

end Poller

/-! ## Epochs -/

namespace Feeder

variable {δ : Type} [WorkDevice δ] {clock : EpochClock} {now : Instant} {f : Feeder}

@[simp] theorem interval_next (f : Feeder) : (f.next clock).2.interval = f.interval := by
  unfold next; split <;> rfl

@[simp] theorem interval_fill (room : Nat) (f : Feeder) (device : δ) :
    (fill clock room f device).2.1.interval = f.interval := by
  induction room generalizing f device with
  | zero => rfl
  | succ room ih =>
      unfold fill
      dsimp only
      split
      · exact interval_next f
      · exact (ih ..).trans (interval_next f)

@[simp] theorem interval_topUp (f : Feeder) (devices : List δ) :
    (topUp clock now f devices).2.1.interval = f.interval := by
  induction devices generalizing f with
  | nil => rfl
  | cons device rest ih => simp [topUp, ih]

@[simp] theorem interval_tick (f : Feeder) (devices : List δ) :
    (tick f clock now devices).feeder.interval = f.interval := by
  unfold tick
  split
  · rfl
  split
  · rfl
  dsimp only
  split <;> rfl

/-- A feeder comes to no end while epochs are left and the clock can show when they are over. -/
theorem last_of_tick {devices : List δ} (hnow : (now.after? f.interval).isSome)
    (h : (tick f clock now devices).outcome = .exhausted) :
    f.nextEpoch ≤ now ∧ clock.next? f.softRefresh = none := by
  obtain ⟨next, hnext⟩ := Option.isSome_iff_exists.mp hnow
  unfold tick at h
  split at h
  · cases h
  rename_i hdue
  cases hc : clock.next? f.softRefresh with
  | none => exact ⟨Int.not_lt.mp hdue, rfl⟩
  | some clock =>
      simp only [hc, hnext] at h
      cases h

end Feeder

/-! ## The loop -/

namespace DispatchLoop

section Frame

variable {β : Type} {s : Settings} {l : DispatchLoop β} {seen now : Instant}

theorem isOver_iff : l.isOver now = true ↔ ∃ deadline, l.deadline = some deadline ∧ deadline ≤ now := by
  simp [isOver, Option.any_eq_true]

/-- A loop as it begins. -/
def begun (s : Settings) (clock : EpochClock) (rigs : List (Rig β)) (now nextEpoch : Instant)
    (deadline : Option Instant) : DispatchLoop β where
  settings := s
  deadline := deadline
  clock := clock
  rigs := rigs
  stats := .start now
  feeder := ⟨s.epochInterval, s.softRefresh, nextEpoch, 0, none, 0⟩
  samples := []
  lastSample := now
  lastHashes := 0
  inbox := []
  connected := true

theorem fed_of_early (hnow : now < l.feeder.nextEpoch) :
    l.feed now = (true, { l with
      feeder := (l.feeder.topUp l.clock now l.rigs).2.1
      rigs := (l.feeder.topUp l.clock now l.rigs).2.2 }, []) := by
  simp [feed, Feeder.tick, hnow]

theorem sample_of_recent (h : now.since l.lastSample < l.settings.statsInterval) : l.sample now = (l, []) := by
  simp [sample, h]

section Start

variable {clock : EpochClock} {rigs : List (Rig β)}

theorem start?_endless (hd : s.duration = none) :
    start? s clock rigs now = (now.after? s.epochInterval).map (begun s clock rigs now · none) := by
  unfold start? Feeder.start?
  simp only [hd]
  cases now.after? s.epochInterval with
  | none => rfl
  | some _ => rfl

theorem start?_for {span : Duration} (hd : s.duration = some span) :
    start? s clock rigs now = (now.after? s.epochInterval).bind fun nextEpoch =>
      (now.after? span).map fun deadline => begun s clock rigs now nextEpoch (some deadline) := by
  unfold start? Feeder.start?
  simp only [hd]
  cases now.after? s.epochInterval with
  | none => rfl
  | some _ =>
      cases now.after? span with
      | none => rfl
      | some _ => rfl

/-- A loop begins if the clock can show when its first epoch and the run are over. -/
theorem isSome_start? : (start? s clock rigs now).isSome ↔
    (now.after? s.epochInterval).isSome ∧ ∀ span, s.duration = some span → (now.after? span).isSome := by
  cases hd : s.duration with
  | none => simp [start?_endless hd]
  | some span =>
      rw [start?_for hd]
      cases now.after? s.epochInterval <;> simp

theorem begun_of_start? (h : start? s clock rigs now = some l) :
    ∃ nextEpoch, now.after? s.epochInterval = some nextEpoch ∧
      l = begun s clock rigs now nextEpoch (s.duration.bind now.after?) := by
  cases hd : s.duration with
  | none =>
      rw [start?_endless hd, Option.map_eq_some_iff] at h
      obtain ⟨nextEpoch, hnext, rfl⟩ := h
      exact ⟨nextEpoch, hnext, rfl⟩
  | some span =>
      rw [start?_for hd, Option.bind_eq_some_iff] at h
      obtain ⟨nextEpoch, hnext, h⟩ := h
      obtain ⟨deadline, hdeadline, rfl⟩ := Option.map_eq_some_iff.mp h
      exact ⟨nextEpoch, hnext, congrArg _ hdeadline.symm⟩

end Start

/-- What the sums of a loop depend on. -/
structure Timed (s : Settings) (now : Instant) (l : DispatchLoop β) : Prop where
  settings : l.settings = s
  interval : l.feeder.interval = s.epochInterval
  sampled : l.lastSample ≤ now
  ended : s.duration = some 0 → l.isOver now = true

namespace Timed

theorem later (h : l.Timed s seen) (hseen : seen ≤ now) : l.Timed s now where
  settings := h.settings
  interval := h.interval
  sampled := Int.le_trans h.sampled hseen
  ended hd := by
    obtain ⟨deadline, hdeadline, hle⟩ := isOver_iff.mp (h.ended hd)
    exact isOver_iff.mpr ⟨deadline, hdeadline, Int.le_trans hle hseen⟩

theorem feed (h : l.Timed s now) : (l.feed now).2.1.Timed s now := by
  unfold DispatchLoop.feed
  dsimp only
  split
  · exact ⟨h.settings, (Feeder.interval_tick ..).trans h.interval, h.sampled, h.ended⟩
  · exact ⟨h.settings, by simp [h.interval], h.sampled, h.ended⟩

theorem sample (h : l.Timed s now) : (l.sample now).1.Timed s now := by
  unfold DispatchLoop.sample
  dsimp only
  split
  · exact h
  · exact ⟨h.settings, h.interval, Int.le_refl now, h.ended⟩

theorem start {clock : EpochClock} {rigs : List (Rig β)} (h : start? s clock rigs now = some l) :
    l.Timed s now := by
  have hsome := isSome_start?.mp (Option.isSome_of_eq_some h)
  obtain ⟨nextEpoch, -, rfl⟩ := begun_of_start? h
  refine ⟨rfl, rfl, Int.le_refl now, fun hd => ?_⟩
  obtain ⟨deadline, hdeadline⟩ := Option.isSome_iff_exists.mp (hsome.2 0 hd)
  refine isOver_iff.mpr ⟨deadline, by rw [begun, hd]; exact hdeadline, ?_⟩
  exact Int.le_of_eq ((Instant.eq_of_after? hdeadline).trans (Int.add_zero now))

variable [Bus β]

theorem await (h : l.Timed s now) (nextSample : Instant) : (l.await now nextSample).2.1.Timed s now := by
  obtain ⟨hset, hint, hsam, hended⟩ := h
  unfold DispatchLoop.await
  split
  · dsimp only
    split
    · exact ⟨hset, hint, hsam, hended⟩
    · exact ⟨hset, hint, hsam, hended⟩
  · split
    · exact ⟨hset, hint, hsam, hended⟩
    · exact ⟨hset, hint, hsam, hended⟩

theorem pass (h : l.Timed s now) : (l.pass now).2.1.Timed s now := by
  have hfed := h.feed
  unfold DispatchLoop.pass
  split
  · exact h
  split
  · rename_i heq
    rwa [heq] at hfed
  · rename_i heq
    rw [heq] at hfed
    dsimp only
    split
    · exact hfed.sample
    · exact hfed.sample.await _

end Timed

end Frame

variable {β : Type} [Bus β] {o : Options} {s : Settings} {l : DispatchLoop β} {now : Instant}
  {clock : EpochClock} {rigs : List (Rig β)}

/-- The loop between its passes, and what the clock showed last. Its readings are early and do not go back; between
two passes the rigs and their events may change at will. -/
inductive Reached (s : Settings) : Instant → DispatchLoop β → Prop
  | start {clock : EpochClock} {rigs : List (Rig β)} {now : Instant} {l : DispatchLoop β} (hnow : now < .early)
      (h : start? s clock rigs now = some l) : Reached s now l
  | pass {seen now : Instant} {wait : Duration} {l l' : DispatchLoop β} {records : List Log.Record}
      (hl : Reached s seen l) (hseen : seen ≤ now) (hnow : now < .early)
      (h : l.pass now = (.ok wait, l', records)) : Reached s now l'
  | meanwhile {now : Instant} {l : DispatchLoop β} (hl : Reached s now l) (rigs : List (Rig β)) (inbox : List Event)
      (connected : Bool) : Reached s now { l with rigs, inbox, connected }

theorem Reached.timed (h : Reached s now l) : l.Timed s now := by
  induction h with
  | start _ h => exact .start h
  | pass _ hseen _ h ih =>
      have hpass := (ih.later hseen).pass
      rwa [h] at hpass
  | meanwhile _ _ _ _ ih => exact ⟨ih.settings, ih.interval, ih.sampled, ih.ended⟩

theorem await_ne_exhausted (nextSample : Instant) : (l.await now nextSample).1 ≠ .error .exhausted := by
  unfold await
  split
  · dsimp only
    split <;> exact nofun
  · split <;> exact nofun

/-- A pass finds a time that the clock cannot show either when it begins an epoch or when it looks for the time of the
next sample. -/
theorem exhausted_of_pass (h : (l.pass now).1 = .error .exhausted) :
    l.isOver now = false ∧
      ((l.feed now).1 = false ∨
        (((l.feed now).2.1.sample now).1.lastSample.after?
          ((l.feed now).2.1.sample now).1.settings.statsInterval) = none) := by
  unfold pass at h
  split at h
  · cases h
  rename_i hended
  refine ⟨Bool.eq_false_iff.mpr hended, ?_⟩
  split at h
  · rename_i heq
    exact Or.inl (congrArg Prod.fst heq)
  · rename_i heq
    rw [heq]
    dsimp only at h
    split at h
    · rename_i hnone
      exact Or.inr hnone
    · exact absurd h (await_ne_exhausted _)

/-- All sums on early readings have times to show for them: those of the pollers, those that a loop begins with, and
those of its passes, which come to an end of this kind only if an epoch is due and none is left. -/
structure TimesFit (β : Type) [Bus β] (s : Settings) : Prop where
  polls : ∀ (p : Poller) (cycle : PollCycle) (queue : Guarded WorkQueue) (exchange : Exchange)
    (finished : PollFinished) (outcome : PollOutcome) (now : Instant), p.interval = s.pollMicros →
    p.finish cycle queue exchange = some finished → finished.result = .ok outcome → now < .early →
    (outcome.nextPoll? now).isSome
  starts : ∀ (clock : EpochClock) (rigs : List (Rig β)) (now : Instant), now < .early →
    (start? s clock rigs now).isSome
  passes : ∀ (l : DispatchLoop β) (seen now : Instant), Reached s seen l → seen ≤ now → now < .early →
    (l.pass now).1 = .error .exhausted → l.feeder.nextEpoch ≤ now ∧ l.clock.next? l.feeder.softRefresh = none

theorem passes_of_le (hepoch : ∀ now : Instant, now < .early → (now.after? s.epochInterval).isSome)
    (hstats : s.duration = some 0 ∨ ∀ now : Instant, now < .early → (now.after? s.statsInterval).isSome)
    (hl : Reached s seen l) (hseen : seen ≤ now) (hnow : now < .early) (h : (l.pass now).1 = .error .exhausted) :
    l.feeder.nextEpoch ≤ now ∧ l.clock.next? l.feeder.softRefresh = none := by
  have htimed := hl.timed.later hseen
  obtain ⟨hended, hfeed | hsample⟩ := exhausted_of_pass h
  · have htick : (l.feeder.tick l.clock now l.rigs).outcome = .exhausted := by
      unfold feed at hfeed
      dsimp only at hfeed
      split at hfeed
      · assumption
      · cases hfeed
    exact Feeder.last_of_tick (by rw [htimed.interval]; exact hepoch now hnow) htick
  · have hsampled := htimed.feed.sample
    cases hstats with
    | inl hd => rw [htimed.ended hd] at hended; cases hended
    | inr hstats =>
        have hsome := hstats _ (Int.lt_of_le_of_lt hsampled.sampled hnow)
        rw [hsampled.settings] at hsample
        rw [hsample] at hsome
        cases hsome

/-- The first pass of a loop neither begins an epoch nor takes a sample, so that all it can miss is
the time of the next sample. -/
theorem isSome_of_first_pass (h : start? s clock rigs now = some l) (hepoch : s.epochInterval ≠ 0)
    (hstats : s.statsInterval ≠ 0) (hduration : s.duration ≠ some 0)
    (hpass : (l.pass now).1 = .error .exhausted → l.feeder.nextEpoch ≤ now) :
    (now.after? s.statsInterval).isSome := by
  obtain ⟨nextEpoch, hnext, rfl⟩ := begun_of_start? h
  obtain rfl := Instant.eq_of_after? hnext
  rw [Option.isSome_iff_ne_none]
  intro hnone
  have hearly : now < now + s.epochInterval :=
    Int.lt_add_of_pos_right now (Int.natCast_pos.mpr (Nat.pos_of_ne_zero hepoch))
  have hended : isOver (begun s clock rigs now (now + s.epochInterval) (s.duration.bind now.after?)) now = false := by
    rw [Bool.eq_false_iff]
    intro hended
    obtain ⟨deadline, hdeadline, hle⟩ := isOver_iff.mp hended
    obtain ⟨span, hspan, hafter⟩ := Option.bind_eq_some_iff.mp hdeadline
    obtain rfl := Instant.eq_of_after? hafter
    have hzero : (span : Int) ≤ 0 := Int.le_of_add_le_add_left (le_of_le_of_eq hle (Int.add_zero now).symm)
    obtain rfl := Nat.le_zero.mp (Int.ofNat_le.mp hzero)
    exact hduration hspan
  have hrecent : now.since now < s.statsInterval := by
    rw [Instant.since, Int.sub_self]
    exact Nat.pos_of_ne_zero hstats
  refine Int.not_le.mpr hearly (hpass ?_)
  unfold pass
  rw [hended, fed_of_early hearly]
  dsimp only
  rw [sample_of_recent hrecent]
  dsimp only
  simp [begun, hnone]

/-- The last early reading tells how long the intervals are at most. -/
theorem bounds_of_timesFit (hs : Settings.ofOptions o = .ok s) (h : TimesFit β s) :
    o.epochSecs ≤ Instant.longest ∧ (∀ secs, o.durationSecs = some secs → secs ≤ Instant.longest) ∧
      (o.durationSecs = some 0 ∨ o.statsSecs ≤ Instant.longest) := by
  obtain ⟨-, hstats, hduration, hepoch, hstats0, hepoch0⟩ := Settings.intervals_of_ofOptions hs
  have hlast : Instant.early - 1 < Instant.early := Int.sub_one_lt_of_le (Int.le_refl _)
  have hstart := h.starts (.start 0) [] _ hlast
  obtain ⟨hepochs, hdurations⟩ := isSome_start?.mp hstart
  rw [hepoch] at hepochs
  refine ⟨Instant.le_of_isSome_after? hepochs, ?_, or_iff_not_imp_left.mpr fun hendless => ?_⟩
  · intro secs hsecs
    exact Instant.le_of_isSome_after? (hdurations _ (by rw [hduration, hsecs]; rfl))
  · obtain ⟨l, hl⟩ := Option.isSome_iff_exists.mp hstart
    have hlasting : s.duration ≠ some 0 := by
      intro hzero
      rw [hduration, Option.map_eq_some_iff] at hzero
      obtain ⟨secs, hsecs, hz⟩ := hzero
      cases secs with
      | zero => exact hendless hsecs
      | succ n => exact Duration.ofSecs_ne_zero n.succ_ne_zero hz
    have hsome : (Instant.after? (.early - 1) s.statsInterval).isSome :=
      isSome_of_first_pass hl (hepoch ▸ Duration.ofSecs_ne_zero hepoch0) (hstats ▸ Duration.ofSecs_ne_zero hstats0)
        hlasting fun hpass => (h.passes l _ _ (.start hlast hl) (Int.le_refl _) hlast hpass).1
    rw [hstats] at hsome
    exact Instant.le_of_isSome_after? hsome

theorem timesFit_of_bounds (hs : Settings.ofOptions o = .ok s) (hpoll : o.pollMicros < UInt64.size)
    (hepochs : o.epochSecs ≤ Instant.longest)
    (hdurations : ∀ secs, o.durationSecs = some secs → secs ≤ Instant.longest)
    (hsamples : o.durationSecs = some 0 ∨ o.statsSecs ≤ Instant.longest) : TimesFit β s := by
  obtain ⟨hmicros, hstats, hduration, hepoch, -, -⟩ := Settings.intervals_of_ofOptions hs
  have hepochs' : ∀ now : Instant, now < .early → (now.after? s.epochInterval).isSome := by
    intro now hnow
    rw [hepoch]
    exact Instant.isSome_after?_of_le hnow hepochs
  constructor
  case polls =>
    intro p cycle queue exchange finished outcome now hp hfinish hok hnow
    refine Instant.isSome_after?_ofMicros hnow ?_
    cases Poller.delay_of_finish hfinish hok with
    | inl h => rw [h]; decide
    | inr h => rwa [h, hp, hmicros]
  case starts =>
    intro clock rigs now hnow
    refine isSome_start?.mpr ⟨hepochs' now hnow, ?_⟩
    intro span hspan
    rw [hduration, Option.map_eq_some_iff] at hspan
    obtain ⟨secs, hsecs, rfl⟩ := hspan
    exact Instant.isSome_after?_of_le hnow (hdurations secs hsecs)
  case passes =>
    intro l seen now hl hseen hnow h
    refine passes_of_le hepochs' ?_ hl hseen hnow h
    refine hsamples.imp (fun hd => by rw [hduration, hd]; rfl) fun hle now hnow => ?_
    rw [hstats]
    exact Instant.isSome_after?_of_le hnow hle

/-- The pause between polls is always short enough. The other intervals have to be short enough, though an interval
between samples does not matter to a run that is over as it begins. -/
theorem times_fit_iff (hs : Settings.ofOptions o = .ok s) (hpoll : o.pollMicros < UInt64.size) :
    TimesFit β s ↔
      o.epochSecs ≤ Instant.longest ∧ (∀ secs, o.durationSecs = some secs → secs ≤ Instant.longest) ∧
        (o.durationSecs = some 0 ∨ o.statsSecs ≤ Instant.longest) :=
  ⟨bounds_of_timesFit hs, fun ⟨hepochs, hdurations, hsamples⟩ =>
    timesFit_of_bounds hs hpoll hepochs hdurations hsamples⟩

theorem standard_times_fit :
    ∃ s, Settings.ofOptions .standard = .ok s ∧ Options.standard.pollMicros < UInt64.size ∧ TimesFit StandIn s :=
  ⟨_, rfl, by decide, (times_fit_iff (o := .standard) rfl (by decide)).mpr ⟨by decide, nofun, Or.inr (by decide)⟩⟩

/-- Options that are accepted, though no loop can begin with them. -/
theorem endless_epoch :
    ∃ s, Settings.ofOptions { Options.standard with bus := .sim, epochSecs := 18446744073709551615 } = .ok s ∧
      start? s (.start 1) ([] : List (Rig StandIn)) 0 = none :=
  ⟨_, rfl, rfl⟩

end DispatchLoop

end Hashboard
