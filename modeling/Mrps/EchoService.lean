import Mrps.EchoPipe
import Mrps.Entries
import Mrps.Fleet

/-!
# Services that echo

A service is a program as its peer sees it: what it has taken in and what it has given out.  It is
faithful when every allowed step, whatever it does inside, is a step of an echo pipe.
-/

/-- A program with the two histories its peer can observe. -/
structure EchoService (α : Type) where
  State : Type
  Event : Type
  system : EventSystem State Event
  initial : State
  /-- Everything it has taken in. -/
  received : State → List α
  /-- Everything it has given out. -/
  sent : State → List α
  /-- The steps its environment is trusted with. -/
  Allowed : State → Event → State → Prop

namespace EchoService

variable {α : Type}

/-- A relation to pipes that every allowed step continues. -/
structure Refines (service : EchoService α) (related : service.State → EchoPipe α → Prop) :
    Prop where
  start : related service.initial EchoPipe.empty
  received : ∀ state pipe, related state pipe → service.received state = pipe.received
  sent : ∀ state pipe, related state pipe → service.sent state = pipe.sent
  step : ∀ state event next pipe, related state pipe → service.system.step state event = some next →
    service.Allowed state event next →
      ∃ events later, EchoPipe.system.run pipe events = some later ∧ related next later

/-- The service does what an echo pipe does. -/
def Faithful (service : EchoService α) : Prop := ∃ related, service.Refines related

/-- From one state to the next the two histories grow, and output that was behind the input stays
behind it. -/
structure Advances {σ : Type} (received sent : σ → List α) (before after : σ) : Prop where
  received_grows : received before <+: received after
  sent_grows : sent before <+: sent after
  echoes : sent before <+: received before → sent after <+: received after

theorem Advances.still {σ : Type} {received sent : σ → List α} {before after : σ}
    (received_eq : received after = received before) (sent_eq : sent after = sent before) :
    Advances received sent before after := by
  refine ⟨?_, ?_, ?_⟩
  · rw [received_eq]
  · rw [sent_eq]
  · rw [received_eq, sent_eq]
    exact id

/-- A service whose histories grow under an invariant, the output behind the input, is faithful. -/
theorem faithful_of_invariant {service : EchoService α} (sound : service.State → Prop)
    (start : sound service.initial) (fresh : service.received service.initial = [])
    (kept : ∀ state, sound state → service.sent state <+: service.received state)
    (step : ∀ state event next, sound state → service.system.step state event = some next →
      service.Allowed state event next → sound next ∧
        service.received state <+: service.received next ∧
        service.sent state <+: service.sent next) : service.Faithful := by
  refine ⟨fun state pipe => sound state ∧ service.received state = pipe.received ∧
    service.sent state = pipe.sent, ?_, ?_, ?_, ?_⟩
  · have silent : service.sent service.initial = [] := by
      have none_sent := kept service.initial start
      rw [fresh] at none_sent
      exact List.prefix_nil.mp none_sent
    exact ⟨start, fresh, silent⟩
  · exact fun _ _ related => related.2.1
  · exact fun _ _ related => related.2.2
  · rintro state event next pipe ⟨holds, received_eq, sent_eq⟩ stepped allowed
    obtain ⟨holds', grown, given⟩ := step state event next holds stepped allowed
    rw [received_eq] at grown
    rw [sent_eq] at given
    obtain ⟨events, execution⟩ := EchoPipe.exists_run grown given (kept next holds')
    exact ⟨events, _, execution, holds', rfl, rfl⟩

/-- A simulation by pipes that show the histories makes a service faithful. -/
theorem faithful_of_simulation {service : EchoService α}
    {related : service.State → EchoPipe α → Prop}
    (simulation : EventSystem.Simulation service.system EchoPipe.system related)
    (start : related service.initial EchoPipe.empty)
    (received : ∀ state pipe, related state pipe → service.received state = pipe.received)
    (sent : ∀ state pipe, related state pipe → service.sent state = pipe.sent) :
    service.Faithful := by
  refine ⟨related, start, received, sent, ?_⟩
  intro state event next pipe holds stepped _
  exact simulation state event next pipe holds stepped

/-! ## The streams of one of many parties -/

section Parties

variable {σ γ : Type} {before after : σ} {party new : γ} {place : Nat}

open Mrps

/-- When one party changes, the streams at an index advance, provided they do so at its place. -/
theorem advances_set (received sent : γ → List α) (parties : σ → List γ)
    (found : (parties before)[place]? = some party)
    (set_eq : parties after = (parties before).set place new) (index : Nat)
    (advances : place = index → Advances received sent party new) :
    Advances (fun state => streamAt received (parties state) index)
      (fun state => streamAt sent (parties state) index) before after := by
  have inside := (List.getElem?_eq_some_iff.mp found).1
  have moved : ∀ view : γ → List α, streamAt view (parties after) index =
      if place = index then view new else streamAt view (parties before) index := by
    intro view
    rw [set_eq, streamAt_set inside]
  by_cases here : place = index
  · subst here
    obtain ⟨read, given, echoes⟩ := advances rfl
    refine ⟨?_, ?_, ?_⟩
    · simpa only [moved, if_true, streamAt_of_found found] using read
    · simpa only [moved, if_true, streamAt_of_found found] using given
    · simpa only [moved, if_true, streamAt_of_found found] using echoes
  · apply Advances.still
    · exact (moved received).trans (if_neg here)
    · exact (moved sent).trans (if_neg here)

/-- A party whose streams are still empty changes nothing when it comes. -/
theorem advances_append (received sent : γ → List α) (parties : σ → List γ)
    (append_eq : parties after = parties before ++ [new]) (unread : received new = [])
    (unsent : sent new = []) (index : Nat) :
    Advances (fun state => streamAt received (parties state) index)
      (fun state => streamAt sent (parties state) index) before after := by
  have empty : ∀ view : γ → List α, view new = [] →
      streamAt view (parties after) index = streamAt view (parties before) index := by
    intro view nothing
    rw [append_eq, streamAt_append_singleton]
    split
    · rename_i here
      subst here
      simp [streamAt, nothing]
    · rfl
  exact .still (empty received unread) (empty sent unsent)

end Parties

end EchoService

/-! ## One stream of one machine of a host -/

section Hosted

open EventSystem Mrps

variable {σ ε τ δ α : Type}

/-- One stream of a machine: what the events bring to it, what was given out on it, and the events
its environment is trusted with, after what was brought so far. -/
structure Outlet (σ ε α : Type) where
  brought : σ → ε → List α
  given : σ → List α
  Timely : σ → List α → ε → Prop

/-- Timely steps keep the machine sound, and a sound machine gives out the front of what was
brought, never less than before. -/
structure Outlet.Echoes (outlet : Outlet σ ε α) (machine : EventSystem σ ε)
    (sound : σ → List α → Prop) : Prop where
  delivered : ∀ member log, sound member log → outlet.given member <+: log
  step : ∀ member log own after, sound member log → machine.step member own = some after →
    outlet.Timely member log own →
      sound after (log ++ outlet.brought member own) ∧ outlet.given member <+: outlet.given after

variable {host : EventSystem τ δ} {machine : EventSystem σ ε} {members : τ → List σ}
  {part : τ → δ → Nat → Option ε}

/-- What an event of a host brings to the stream of the machine at an index. -/
def Outlet.broughtBy (outlet : Outlet σ ε α) (members : τ → List σ) (part : τ → δ → Nat → Option ε)
    (index : Nat) (state : τ) (event : δ) : List α :=
  match (members state)[index]?, part state event index with
  | some member, some own => outlet.brought member own
  | _, _ => []

/-- The stream of the machine at an index, while its host runs all of them. -/
def Outlet.hosted (outlet : Outlet σ ε α) (host : EventSystem τ δ) (members : τ → List σ)
    (part : τ → δ → Nat → Option ε) (index : Nat) (initial : τ) : EchoService α where
  State := τ × List α
  Event := δ
  system := host.logged (outlet.broughtBy members part index)
  initial := (initial, [])
  received state := state.2
  sent state := streamAt outlet.given (members state.1) index
  Allowed state event _ :=
    ∀ member ∈ (members state.1)[index]?, ∀ own ∈ part state.1 event index,
      outlet.Timely member state.2 own

/-- The machine at the index is sound for what was brought to it, and nothing was brought before
there is one. -/
structure Outlet.Keeps (sound : σ → List α → Prop) (members : τ → List σ) (index : Nat)
    (state : τ × List α) : Prop where
  holds : ∀ member, (members state.1)[index]? = some member → sound member state.2
  silent : (members state.1)[index]? = none → state.2 = []

variable {outlet : Outlet σ ε α} {sound : σ → List α → Prop} {index : Nat} {state : τ × List α}
  {event : δ} {after : τ} {member : σ}

theorem Outlet.keeps_of_found {log : List α} (found : (members after)[index]? = some member)
    (kept : sound member log) : Outlet.Keeps sound members index (after, log) where
  holds := by
    intro other at_index
    obtain rfl := Option.some.inj (found.symm.trans at_index)
    exact kept
  silent := by
    intro gone
    rw [found] at gone
    cases gone

theorem Outlet.Keeps.absent (keeps : Outlet.Keeps sound members index state)
    (absent : (members state.1)[index]? = none)
    (later : ∀ member, (members after)[index]? = some member → sound member []) :
    Outlet.Keeps sound members index
      (after, state.2 ++ outlet.broughtBy members part index state.1 event) := by
  have nothing : outlet.broughtBy members part index state.1 event = [] := by
    simp [Outlet.broughtBy, absent]
  have silent : state.2 = [] := keeps.silent absent
  rw [nothing, List.append_nil, silent]
  exact ⟨later, fun _ => rfl⟩

theorem Outlet.Keeps.present (keeps : Outlet.Keeps sound members index state)
    (hosts : Hosts host machine members part) (echoes : outlet.Echoes machine sound)
    (found : (members state.1)[index]? = some member) (step : host.step state.1 event = some after)
    (timely : ∀ own ∈ part state.1 event index, outlet.Timely member state.2 own) :
    Outlet.Keeps sound members index
        (after, state.2 ++ outlet.broughtBy members part index state.1 event) ∧
      outlet.given member <+: streamAt outlet.given (members after) index := by
  have moved := hosts state.1 event after index member step found
  cases own : part state.1 event index with
  | none =>
      rw [own] at moved
      have here : (members after)[index]? = some member := moved
      have nothing : outlet.broughtBy members part index state.1 event = [] := by
        simp [Outlet.broughtBy, own]
      rw [nothing, List.append_nil, streamAt_of_found here]
      exact ⟨keeps_of_found here (keeps.holds member found), List.prefix_rfl⟩
  | some act =>
      rw [own] at moved
      obtain ⟨after_member, member_step, here⟩ := moved
      have brought_eq : outlet.broughtBy members part index state.1 event =
          outlet.brought member act := by
        simp [Outlet.broughtBy, own, found]
      obtain ⟨kept, grown⟩ := echoes.step member state.2 act after_member (keeps.holds member found)
        member_step (timely act own)
      rw [brought_eq, streamAt_of_found here]
      exact ⟨keeps_of_found here kept, grown⟩

/-- A stream that echoes does so whatever else its host runs. -/
theorem Outlet.hosted_faithful (hosts : Hosts host machine members part)
    (echoes : outlet.Echoes machine sound) {initial : τ}
    (first : ∀ member, (members initial)[index]? = some member → sound member [])
    (later : ∀ state event next member, host.step state event = some next →
      (members state)[index]? = none → (members next)[index]? = some member → sound member []) :
    (outlet.hosted host members part index initial).Faithful := by
  apply EchoService.faithful_of_invariant (Outlet.Keeps sound members index)
  · exact ⟨first, fun _ => rfl⟩
  · rfl
  · intro state keeps
    change streamAt outlet.given (members state.1) index <+: state.2
    rw [streamAt]
    cases found : (members state.1)[index]? with
    | none => exact List.nil_prefix
    | some member => exact echoes.delivered member state.2 (keeps.holds member found)
  · intro state event next keeps step allowed
    obtain ⟨after, host_step, rfl⟩ := (logged_step_iff host).mp step
    cases found : (members state.1)[index]? with
    | none =>
        have nothing_given : streamAt outlet.given (members state.1) index = [] := by
          rw [streamAt, found]
          rfl
        have given_before : (outlet.hosted host members part index initial).sent state = [] :=
          nothing_given
        rw [given_before]
        exact ⟨keeps.absent found fun member => later state.1 event after member host_step found,
          List.prefix_append _ _, List.nil_prefix⟩
    | some member =>
        obtain ⟨kept, grown⟩ := keeps.present hosts echoes found host_step (allowed member found)
        have given_before : (outlet.hosted host members part index initial).sent state =
            outlet.given member := streamAt_of_found found
        rw [given_before]
        exact ⟨kept, List.prefix_append _ _, grown⟩

end Hosted
