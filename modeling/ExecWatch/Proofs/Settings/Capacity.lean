import ExecWatch.Proofs.Alert.Outcome
import ExecWatch.Proofs.Settings.Compilation

/-!
# Loaded capacities

Loading settings refuses the capacity 0, for which there is no alert channel, but none of those that are too
large for one. Main statements:

* `Channel.exists_ofCapacity?_iff`: the capacities of channels;
* `Settings.channel_opens_iff`: a run of an engine with loaded settings ends at its channel exactly when the
  capacity is too large;
* `Settings.vast_capacity_has_no_channel`: such settings can be loaded.
-/

namespace ExecWatch

theorem Channel.exists_ofCapacity?_iff {α : Type} (capacity : Nat) :
    (∃ c : Channel α, ofCapacity? capacity = some c) ↔ 1 ≤ capacity ∧ capacity ≤ maxCapacity := by
  constructor
  · rintro ⟨c, hc⟩
    unfold ofCapacity? at hc
    split at hc
    · cases hc
    · omega
  · rintro ⟨hpos, hmax⟩
    exact ⟨fresh capacity, ofCapacity?_eq hpos hmax⟩

/-- An action that ends with no value ends with the error that is left. -/
theorem Engine.Ends.eq_error {α : Type} {action : Action α} {e : Error}
    (h : Ends action (fun _ => False) (· = e)) (before : Activity) :
    (action.outcome before).1 = .error e := by
  have hends := h before
  generalize action.outcome before = done at hends ⊢
  obtain ⟨e' | a, later⟩ := done
  · exact congrArg _ hends
  · exact hends.elim

namespace Settings

theorem capacity_pos_of_load {directory : Directory} {path : Option String} {environment : Environment}
    {s : Settings} (h : load directory path environment = .ok s) : 1 ≤ s.channelCapacity := by
  have hnone := problems_of_load h
  rw [problems, List.append_eq_nil_iff, List.append_eq_nil_iff, capacityProblems] at hnone
  obtain ⟨⟨-, hcapacity⟩, -⟩ := hnone
  split at hcapacity
  · cases hcapacity
  · omega

/-- **A loaded capacity has a channel unless it is too large.** Loaded settings let at least one alert wait. A
run of an engine that was started with them ends for want of a channel exactly when their capacity is above the
largest of a channel. -/
theorem channel_opens_iff {directory : Directory} {path : Option String} {environment : Environment}
    {s : Settings} (hload : load directory path environment = .ok s) :
    1 ≤ s.channelCapacity ∧
      ((∃ c : Channel Alert, Channel.ofCapacity? s.channelCapacity = some c) ↔
        s.channelCapacity ≤ Channel.maxCapacity) ∧
      ∀ object host before e, ((Engine.start s object host).outcome before).1 = .ok e →
        ∀ now samples before',
          (s.channelCapacity ≤ Channel.maxCapacity → ∀ capacity,
            ((Engine.run e host now samples).outcome before').1 ≠ .error (.channelCapacity capacity)) ∧
          (Channel.maxCapacity < s.channelCapacity →
            ((Engine.run e host now samples).outcome before').1 =
              .error (.channelCapacity s.channelCapacity)) := by
  have hpos := capacity_pos_of_load hload
  refine ⟨hpos, ?_, fun object host before e hstart now samples before' => ?_⟩
  · rw [Channel.exists_ofCapacity?_iff, and_iff_right hpos]
  · have hsettings := Engine.ends_start s object host before
    rw [hstart] at hsettings
    obtain ⟨m, hm⟩ := compiles_of_validate (problems_of_load hload)
    rw [← hsettings] at hm hpos ⊢
    constructor
    · intro hmax capacity hrun
      have honly := Engine.onlyProbeFails_run hm (Channel.ofCapacity?_eq hpos hmax) host now samples before'
      rw [hrun] at honly
      exact honly
    · intro hlarge
      have hnone : Channel.ofCapacity? (α := Alert) e.settings.channelCapacity = none := by
        rw [Channel.ofCapacity?, if_pos (.inr hlarge)]
      exact (Engine.ends_run_of_no_channel hm hnone host now samples).eq_error before'

/-- Settings of nothing but a capacity. -/
def ofCapacity (capacity : Nat) : Settings := { channelCapacity := capacity }

theorem channel_opens_iff_largest :
    load [] none [("ALERT_CHANNEL_CAPACITY", "2305843009213693951")] =
        .ok (ofCapacity 2305843009213693951) ∧
      ((Engine.start (ofCapacity 2305843009213693951) (.code shellProbe) shellHost).outcome).1 =
        .ok ⟨ofCapacity 2305843009213693951, shellProbe, .unresolved⟩ ∧
      (∃ c : Channel Alert, Channel.ofCapacity? 2305843009213693951 = some c) ∧
      ∀ now samples capacity,
        ((Engine.run ⟨ofCapacity 2305843009213693951, shellProbe, .unresolved⟩ shellHost now
          samples).outcome).1 ≠ .error (.channelCapacity capacity) := by
  have hload : load [] none [("ALERT_CHANNEL_CAPACITY", "2305843009213693951")] =
      .ok (ofCapacity 2305843009213693951) := eq_ok_of_toOption (by decide +kernel)
  have hstart : ((Engine.start (ofCapacity 2305843009213693951) (.code shellProbe) shellHost).outcome).1 =
      .ok ⟨ofCapacity 2305843009213693951, shellProbe, .unresolved⟩ :=
    eq_ok_of_toOption (by decide +kernel)
  obtain ⟨-, hopens, hrun⟩ := channel_opens_iff hload
  exact ⟨hload, hstart, hopens.2 (Nat.le_refl _),
    fun now samples => (hrun _ _ _ _ hstart now samples _).1 (Nat.le_refl _)⟩

/-- One more is loaded all the same. -/
theorem vast_capacity_has_no_channel :
    load [] none [("ALERT_CHANNEL_CAPACITY", "2305843009213693952")] =
        .ok (ofCapacity 2305843009213693952) ∧
      (Channel.ofCapacity? 2305843009213693952 : Option (Channel Alert)) = none ∧
      ((Engine.start (ofCapacity 2305843009213693952) (.code shellProbe) shellHost).outcome).1 =
        .ok ⟨ofCapacity 2305843009213693952, shellProbe, .unresolved⟩ ∧
      ∀ now samples,
        ((Engine.run ⟨ofCapacity 2305843009213693952, shellProbe, .unresolved⟩ shellHost now
          samples).outcome).1 = .error (.channelCapacity 2305843009213693952) :=
  ⟨eq_ok_of_toOption (by decide +kernel), rfl, eq_ok_of_toOption (by decide +kernel), fun _ _ => rfl⟩

end Settings

end ExecWatch
