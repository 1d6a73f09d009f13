import Mrps.EchoService

/-!
# Dialogues

A speaker puts symbols on a connection and takes others from it.  In a dialogue it faces a service
across two channels that keep the order of symbols and may hold them back and cut them anywhere.
When the service is faithful, what the speaker hears is its own words, so every dialogue shows to
the speaker as a run of its own against an echo.
-/

/-- A program that uses a service. -/
structure Speaker (α : Type) where
  State : Type
  Event : Type
  system : EventSystem State Event
  initial : State
  /-- Everything it has put on the connection. -/
  placed : State → List α
  /-- What a step takes from the connection. -/
  heard : State → Event → List α
  /-- The steps its environment is trusted with. -/
  Allowed : State → Event → State → Prop
  /-- Nothing is taken back. -/
  grows : ∀ state event next, system.step state event = some next → placed state <+: placed next

/-- The speaker with everything it has heard, the service, and the channels between them. -/
structure Dialogue {α : Type} (speaker : Speaker α) (service : EchoService α) where
  speaking : speaker.State
  heard : List α
  /-- Placed by the speaker and not yet taken in by the service. -/
  toService : List α
  serving : service.State
  /-- Given out by the service and not yet heard. -/
  toSpeaker : List α

/-- Steps of the two ends. -/
inductive DialogueEvent {α : Type} (speaker : Speaker α) (service : EchoService α) where
  | speaker (event : speaker.Event)
  | service (event : service.Event)

namespace Dialogue

variable {α : Type} {speaker : Speaker α} {service : EchoService α}

/-- Nothing was said. -/
def initial (speaker : Speaker α) (service : EchoService α) : Dialogue speaker service :=
  { speaking := speaker.initial
    heard := []
    toService := []
    serving := service.initial
    toSpeaker := [] }

/-- The speaker's end after a step that takes some symbols from the connection. -/
def withSpeaker (dialogue : Dialogue speaker service) (bytes : List α) (speaking : speaker.State) :
    Dialogue speaker service :=
  { dialogue with
    speaking
    heard := dialogue.heard ++ bytes
    toService := dialogue.toService ++
      (speaker.placed speaking).drop (speaker.placed dialogue.speaking).length
    toSpeaker := dialogue.toSpeaker.drop bytes.length }

/-- What the service takes in with a step. -/
def taken (dialogue : Dialogue speaker service) (serving : service.State) : List α :=
  (service.received serving).drop (service.received dialogue.serving).length

/-- The service's end after a step. -/
def withService (dialogue : Dialogue speaker service) (serving : service.State) :
    Dialogue speaker service :=
  { dialogue with
    serving
    toService := dialogue.toService.drop (dialogue.taken serving).length
    toSpeaker := dialogue.toSpeaker ++
      (service.sent serving).drop (service.sent dialogue.serving).length }

variable [DecidableEq α]

/-- One step.  Symbols arrive at either end only from its channel. -/
def next (dialogue : Dialogue speaker service) :
    DialogueEvent speaker service → Option (Dialogue speaker service)
  | .speaker event =>
      (speaker.system.step dialogue.speaking event).bind fun speaking =>
        let bytes := speaker.heard dialogue.speaking event
        if bytes <+: dialogue.toSpeaker then some (dialogue.withSpeaker bytes speaking) else none
  | .service event =>
      (service.system.step dialogue.serving event).bind fun serving =>
        if dialogue.taken serving <+: dialogue.toService then some (dialogue.withService serving)
        else none

end Dialogue

section Runs

variable {α : Type} {speaker : Speaker α} {service : EchoService α}

/-- Either end's environment does what that end relies on. -/
def DialogueAssumed (before : Dialogue speaker service) (event : DialogueEvent speaker service)
    (after : Dialogue speaker service) : Prop :=
  match event with
  | .speaker event => speaker.Allowed before.speaking event after.speaking
  | .service event => service.Allowed before.serving event after.serving

/-- The speaker's steps among those of a dialogue. -/
def spoken (events : List (DialogueEvent speaker service)) : List speaker.Event :=
  events.filterMap fun
    | .speaker event => some event
    | .service _ => none

/-! ## What the speaker hears -/

namespace Dialogue

/-- No symbol is lost between the two ends. -/
structure Sound (related : service.State → EchoPipe α → Prop)
    (dialogue : Dialogue speaker service) :
    Prop where
  shown : ∃ pipe, related dialogue.serving pipe
  upstream : service.received dialogue.serving ++ dialogue.toService =
    speaker.placed dialogue.speaking
  downstream : dialogue.heard ++ dialogue.toSpeaker = service.sent dialogue.serving

variable {related : service.State → EchoPipe α → Prop} {dialogue after : Dialogue speaker service}

theorem sound_initial (refines : service.Refines related)
    (silent : speaker.placed speaker.initial = []) : (initial speaker service).Sound related where
  shown := ⟨EchoPipe.empty, refines.start⟩
  upstream := by
    rw [initial, silent, refines.received _ _ refines.start]
    rfl
  downstream := by
    rw [initial, refines.sent _ _ refines.start]
    rfl

theorem Sound.kept (sound : dialogue.Sound related) (refines : service.Refines related) :
    service.sent dialogue.serving <+: service.received dialogue.serving := by
  obtain ⟨pipe, shown⟩ := sound.shown
  rw [refines.sent _ _ shown, refines.received _ _ shown]
  exact pipe.sent_prefix

theorem Sound.echoed (sound : dialogue.Sound related) (refines : service.Refines related) :
    dialogue.heard ++ dialogue.toSpeaker <+: speaker.placed dialogue.speaking := by
  have forth : service.received dialogue.serving <+: speaker.placed dialogue.speaking :=
    sound.upstream ▸ List.prefix_append _ _
  rw [sound.downstream]
  exact (sound.kept refines).trans forth

variable [DecidableEq α]

theorem Sound.speak (sound : dialogue.Sound related) (refines : service.Refines related)
    {event : speaker.Event} (step : dialogue.next (.speaker event) = some after) :
    speaker.system.step dialogue.speaking event = some after.speaking ∧
      after.heard = dialogue.heard ++ speaker.heard dialogue.speaking event ∧
      after.heard <+: speaker.placed dialogue.speaking ∧ after.Sound related := by
  obtain ⟨speaking, spoke, guarded⟩ := Option.bind_eq_some_iff.mp step
  rw [Option.ite_none_right_eq_some] at guarded
  obtain ⟨⟨rest, rest_eq⟩, stepped⟩ := guarded
  obtain rfl := Option.some.inj stepped
  have heard_eq : (dialogue.withSpeaker (speaker.heard dialogue.speaking event) speaking).heard =
      dialogue.heard ++ speaker.heard dialogue.speaking event := rfl
  refine ⟨spoke, rfl, ?_, sound.shown, ?_, ?_⟩
  · have echoed := sound.echoed refines
    rw [← rest_eq, ← List.append_assoc] at echoed
    exact (List.prefix_append _ _).trans echoed
  · obtain ⟨more, placed_eq⟩ := speaker.grows _ _ _ spoke
    change service.received dialogue.serving ++ (dialogue.toService ++
      (speaker.placed speaking).drop (speaker.placed dialogue.speaking).length) =
        speaker.placed speaking
    rw [← placed_eq, List.drop_left, ← List.append_assoc, sound.upstream]
  · change dialogue.heard ++ speaker.heard dialogue.speaking event ++
      dialogue.toSpeaker.drop (speaker.heard dialogue.speaking event).length =
        service.sent dialogue.serving
    rw [← rest_eq, List.drop_left, List.append_assoc, rest_eq, sound.downstream]

theorem Sound.serve (sound : dialogue.Sound related) (refines : service.Refines related)
    {event : service.Event} (step : dialogue.next (.service event) = some after)
    (allowed : service.Allowed dialogue.serving event after.serving) :
    after.speaking = dialogue.speaking ∧ after.heard = dialogue.heard ∧ after.Sound related := by
  obtain ⟨serving, served, guarded⟩ := Option.bind_eq_some_iff.mp step
  rw [Option.ite_none_right_eq_some] at guarded
  obtain ⟨⟨rest, rest_eq⟩, stepped⟩ := guarded
  obtain rfl := Option.some.inj stepped
  obtain ⟨pipe, shown⟩ := sound.shown
  obtain ⟨events, later, execution, shown'⟩ := refines.step _ _ _ _ shown served allowed
  have grown : service.received dialogue.serving <+: service.received serving := by
    rw [refines.received _ _ shown, refines.received _ _ shown']
    exact EchoPipe.run_received_prefix execution
  have given : service.sent dialogue.serving <+: service.sent serving := by
    rw [refines.sent _ _ shown, refines.sent _ _ shown']
    exact EchoPipe.run_sent_prefix execution
  refine ⟨rfl, rfl, ⟨later, shown'⟩, ?_, ?_⟩
  · obtain ⟨more, received_eq⟩ := grown
    have taken_eq : dialogue.taken serving = more := by
      rw [taken, ← received_eq, List.drop_left]
    change service.received serving ++ dialogue.toService.drop (dialogue.taken serving).length =
      speaker.placed dialogue.speaking
    rw [← received_eq, ← rest_eq, List.drop_left, ← sound.upstream, ← rest_eq, taken_eq,
      List.append_assoc]
  · obtain ⟨more, sent_eq⟩ := given
    change dialogue.heard ++ (dialogue.toSpeaker ++
      (service.sent serving).drop (service.sent dialogue.serving).length) = service.sent serving
    rw [← sent_eq, List.drop_left, ← List.append_assoc, sound.downstream]

end Dialogue

/-! ## The speaker's own run -/

namespace Speaker

/-- The speaker with a log of what it heard. -/
abbrev hearing (speaker : Speaker α) : EventSystem (speaker.State × List α) speaker.Event :=
  speaker.system.logged speaker.heard

/-- The step hears only what was placed before, and its environment is as trusted. -/
def HearsEcho (speaker : Speaker α) (before : speaker.State × List α) (event : speaker.Event)
    (after : speaker.State × List α) : Prop :=
  after.2 <+: speaker.placed before.1 ∧ speaker.Allowed before.1 event after.1

end Speaker

variable [DecidableEq α]

/-- The runs of a dialogue. -/
def dialogues (speaker : Speaker α) (service : EchoService α) :
    EventSystem (Dialogue speaker service) (DialogueEvent speaker service) :=
  { step := Dialogue.next }

/-- A service that relies on nothing leaves only the speaker's environment to be trusted. -/
theorem along_dialogueAssumed (relies : ∀ state event next, service.Allowed state event next)
    {initial : Dialogue speaker service} {events : List (DialogueEvent speaker service)}
    (trusted : ∀ event ∈ spoken events, ∀ state next, speaker.Allowed state event next) :
    (dialogues speaker service).Along DialogueAssumed initial events := by
  rw [EventSystem.along_iff]
  rintro front event back before after split - -
  have member : event ∈ events := by simp [split]
  cases event with
  | service event => exact relies _ _ _
  | speaker event => exact trusted event (List.mem_filterMap.mpr ⟨_, member, rfl⟩) _ _

/-- Facing a faithful service the speaker goes through a run of its own in which it hears
an echo. -/
theorem dialogue_spoken (faithful : service.Faithful) (silent : speaker.placed speaker.initial = [])
    {events : List (DialogueEvent speaker service)} {dialogue : Dialogue speaker service}
    (assumed : (dialogues speaker service).Along DialogueAssumed (.initial speaker service) events)
    (execution :
      (dialogues speaker service).run (.initial speaker service) events = some dialogue) :
    speaker.hearing.run (speaker.initial, []) (spoken events) =
        some (dialogue.speaking, dialogue.heard) ∧
      speaker.hearing.Along speaker.HearsEcho (speaker.initial, []) (spoken events) := by
  obtain ⟨related, refines⟩ := faithful
  have sound : (Dialogue.initial speaker service).Sound related :=
    Dialogue.sound_initial refines silent
  have onwards : ∀ (events : List (DialogueEvent speaker service))
      (before : Dialogue speaker service), before.Sound related →
      (dialogues speaker service).Along DialogueAssumed before events →
      (dialogues speaker service).run before events = some dialogue →
      speaker.hearing.run (before.speaking, before.heard) (spoken events) =
          some (dialogue.speaking, dialogue.heard) ∧
        speaker.hearing.Along speaker.HearsEcho (before.speaking, before.heard)
          (spoken events) := by
    intro events
    induction events with
    | nil =>
        intro before _ _ execution
        obtain rfl : before = dialogue := by simpa using execution
        exact ⟨rfl, trivial⟩
    | cons event events ih =>
        intro before sound assumed execution
        obtain ⟨middle, step, rest⟩ := (dialogues speaker service).run_cons_eq_some execution
        obtain ⟨here, later⟩ := assumed middle step
        cases event with
        | service event =>
            obtain ⟨same, same_heard, sound'⟩ := sound.serve refines step here
            have tail := ih middle sound' later rest
            rw [same, same_heard] at tail
            exact tail
        | speaker event =>
            obtain ⟨spoke, heard_eq, echoed, sound'⟩ := sound.speak refines step
            obtain ⟨tail_run, tail_along⟩ := ih middle sound' later rest
            have hears : speaker.hearing.step (before.speaking, before.heard) event =
                some (middle.speaking, middle.heard) :=
              (EventSystem.logged_step_iff speaker.system).mpr ⟨_, spoke, by rw [heard_eq]⟩
            constructor
            · change speaker.hearing.run (before.speaking, before.heard)
                (event :: spoken events) = _
              rw [EventSystem.run_cons, hears]
              exact tail_run
            · intro after step'
              obtain rfl : (middle.speaking, middle.heard) = after := by simpa [hears] using step'
              exact ⟨⟨echoed, here⟩, tail_along⟩
  exact onwards events _ sound assumed execution

/-- The events lead the speaker to the state while it faces some faithful service. -/
def Speaker.Converses (speaker : Speaker α) (events : List speaker.Event) (state : speaker.State) :
    Prop :=
  ∃ service : EchoService α, service.Faithful ∧
    ∃ (conversation : List (DialogueEvent speaker service)) (dialogue : Dialogue speaker service),
      (dialogues speaker service).Along DialogueAssumed (.initial speaker service) conversation ∧
      (dialogues speaker service).run (.initial speaker service) conversation = some dialogue ∧
      spoken conversation = events ∧ dialogue.speaking = state

theorem Speaker.Converses.run {events : List speaker.Event} {state : speaker.State}
    (converses : speaker.Converses events state) (silent : speaker.placed speaker.initial = []) :
    speaker.system.run speaker.initial events = some state := by
  obtain ⟨service, faithful, conversation, dialogue, assumed, execution, rfl, rfl⟩ := converses
  obtain ⟨own_run, -⟩ := dialogue_spoken faithful silent assumed execution
  rw [← EventSystem.logged_run speaker.system speaker.heard speaker.initial [], own_run]
  rfl

/-- What a speaker keeps of its past, itself and what it heard while it hears an echo, it keeps
facing a faithful service, and what comes with every such step holds along its steps. -/
theorem Speaker.Converses.kept {invariant : List speaker.Event → speaker.State → List α → Prop}
    {property : speaker.State → speaker.Event → speaker.State → Prop}
    (silent : speaker.placed speaker.initial = []) (start : invariant [] speaker.initial [])
    (kept : ∀ past state log event next, invariant past state log →
      speaker.system.step state event = some next →
      log ++ speaker.heard state event <+: speaker.placed state → speaker.Allowed state event next →
        invariant (past ++ [event]) next (log ++ speaker.heard state event) ∧
          property state event next)
    {events : List speaker.Event} {state : speaker.State}
    (converses : speaker.Converses events state) :
    (∃ heard, invariant events state heard) ∧
      speaker.system.Along property speaker.initial events := by
  obtain ⟨service, faithful, conversation, dialogue, assumed, execution, rfl, rfl⟩ := converses
  obtain ⟨own_run, hears⟩ := dialogue_spoken faithful silent assumed execution
  have onwards : ∀ (later past : List speaker.Event) (state : speaker.State) (log : List α),
      invariant past state log → speaker.hearing.Along speaker.HearsEcho (state, log) later →
      speaker.hearing.run (state, log) later = some (dialogue.speaking, dialogue.heard) →
        invariant (past ++ later) dialogue.speaking dialogue.heard ∧
          speaker.system.Along property state later := by
    intro later
    induction later with
    | nil =>
        intro past state log holds _ execution
        obtain ⟨rfl, rfl⟩ : state = dialogue.speaking ∧ log = dialogue.heard := by
          simpa using execution
        exact ⟨by simpa using holds, trivial⟩
    | cons event later ih =>
        intro past state log holds hears execution
        obtain ⟨⟨next, longer⟩, hearing_step, rest⟩ := speaker.hearing.run_cons_eq_some execution
        obtain ⟨after, step, pair_eq⟩ :=
          (EventSystem.logged_step_iff speaker.system).mp hearing_step
        obtain ⟨rfl, rfl⟩ := Prod.mk.inj pair_eq
        obtain ⟨⟨echoed, allowed⟩, hears_later⟩ := hears _ hearing_step
        obtain ⟨holds', here⟩ := kept past state log event next holds step echoed allowed
        obtain ⟨final, along⟩ := ih (past ++ [event]) next _ holds' hears_later rest
        refine ⟨by simpa using final, ?_⟩
        intro other step'
        obtain rfl : next = other := by simpa [step] using step'
        exact ⟨here, along⟩
  obtain ⟨final, along⟩ := onwards (spoken conversation) [] speaker.initial [] start hears own_run
  exact ⟨⟨_, final⟩, along⟩

end Runs
