import Mathlib.Tactic

/-!
# Mailboxes

A mailbox is a list of messages in the order of their arrival.  A selective receive takes the first
message that one of its clauses matches and leaves the others in place.  A mailbox with several
senders interleaves their streams: the messages of one sender keep their order.
-/

namespace Mailbox

section Receive

variable {μ β : Type*}

/-- Take the first message the clauses match, with the result of its clause. -/
def receive (clause : μ → Option β) : List μ → Option (β × List μ)
  | [] => none
  | message :: messages =>
      match clause message with
      | some result => some (result, messages)
      | none => (receive clause messages).map fun taken => (taken.1, message :: taken.2)

/-- What a receive takes and what it leaves. -/
theorem receive_eq_some {clause : μ → Option β} {messages rest : List μ} {result : β}
    (taken : receive clause messages = some (result, rest)) :
    ∃ before message after, messages = before ++ message :: after ∧ rest = before ++ after ∧
      clause message = some result ∧ ∀ skipped ∈ before, clause skipped = none := by
  induction messages generalizing rest with
  | nil => simp [receive] at taken
  | cons message messages ih =>
      cases matched : clause message with
      | some value =>
          obtain ⟨rfl, rfl⟩ : value = result ∧ messages = rest := by
            simpa [receive, matched] using taken
          exact ⟨[], message, messages, rfl, rfl, matched, by simp⟩
      | none =>
          obtain ⟨⟨value, left⟩, later, pair_eq⟩ :
              ∃ later, receive clause messages = some later ∧
                (later.1, message :: later.2) = (result, rest) := by
            simpa [receive, matched] using taken
          obtain ⟨rfl, rfl⟩ := Prod.mk.inj pair_eq
          obtain ⟨before, found, after, rfl, rfl, found_matched, skipped⟩ := ih later
          refine ⟨message :: before, found, after, rfl, rfl, found_matched, ?_⟩
          intro other member
          rcases List.mem_cons.mp member with rfl | member
          · exact matched
          · exact skipped other member

theorem mem_of_receive {clause : μ → Option β} {messages rest : List μ} {result : β}
    (taken : receive clause messages = some (result, rest)) :
    ∀ message ∈ rest, message ∈ messages := by
  obtain ⟨before, message, after, rfl, rfl, -, -⟩ := receive_eq_some taken
  intro other member
  rcases List.mem_append.mp member with front | back
  · exact List.mem_append_left _ front
  · exact List.mem_append_right _ (List.mem_cons_of_mem _ back)

end Receive

section Senders

variable {μ : Type*}

/-- The messages of one sender, in order. -/
def ofSender (sender : Option Nat) (messages : List (Option Nat × μ)) : List μ :=
  (messages.filter fun message => message.1 = sender).map Prod.snd

@[simp] theorem ofSender_nil (sender : Option Nat) :
    ofSender sender ([] : List (Option Nat × μ)) = [] := rfl

@[simp] theorem ofSender_append (sender : Option Nat) (front back : List (Option Nat × μ)) :
    ofSender sender (front ++ back) = ofSender sender front ++ ofSender sender back := by
  simp [ofSender]

theorem ofSender_cons_self (sender : Option Nat) (message : μ)
    (messages : List (Option Nat × μ)) :
    ofSender sender ((sender, message) :: messages) = message :: ofSender sender messages := by
  simp [ofSender]

theorem ofSender_cons_of_ne {sender other : Option Nat} (ne : other ≠ sender) (message : μ)
    (messages : List (Option Nat × μ)) :
    ofSender sender ((other, message) :: messages) = ofSender sender messages := by
  simp [ofSender, ne]

/-- What adds up over messages adds up over the streams of the senders. -/
theorem measure_eq_sum {measure : List μ → Nat} (nil : measure [] = 0)
    (cons : ∀ message messages,
      measure (message :: messages) = measure [message] + measure messages)
    {senders : Nat} {messages : List (Option Nat × μ)}
    (known : ∀ message ∈ messages, ∀ sender ∈ message.1, sender < senders) :
    measure (messages.map Prod.snd) =
      measure (ofSender none messages) +
        ∑ sender ∈ Finset.range senders, measure (ofSender (some sender) messages) := by
  induction messages with
  | nil => simp [nil]
  | cons message messages ih =>
      have later := ih fun other member => known other (List.mem_cons_of_mem message member)
      obtain ⟨from_sender, content⟩ := message
      rw [List.map_cons, cons, later]
      cases from_sender with
      | none =>
          have others : ∀ sender, ofSender (some sender) ((none, content) :: messages) =
              ofSender (some sender) messages := fun sender => ofSender_cons_of_ne (by simp) _ _
          simp only [others, ofSender_cons_self]
          have first := cons content (ofSender none messages)
          omega
      | some sender =>
          have inside : sender < senders := known _ List.mem_cons_self sender rfl
          have split : ∀ other ∈ Finset.range senders,
              measure (ofSender (some other) ((some sender, content) :: messages)) =
                (if other = sender then measure [content] else 0) +
                  measure (ofSender (some other) messages) := by
            intro other _
            by_cases same : other = sender
            · subst same
              rw [ofSender_cons_self, cons, if_pos rfl]
            · rw [ofSender_cons_of_ne (by simpa [eq_comm] using same), if_neg same, zero_add]
          rw [Finset.sum_congr rfl split, Finset.sum_add_distrib, Finset.sum_ite_eq',
            if_pos (Finset.mem_range.mpr inside), ofSender_cons_of_ne (by simp)]
          dsimp only
          omega

end Senders

end Mailbox
