import Mathlib.Algebra.Order.Ring.Int
import Mathlib.Data.List.Perm.Subperm
import Mathlib.Data.List.Range

/-!
# Channels with numbered messages

A channel keeps the messages published on it and names each by its number. A number is in flight
until it is taken or dropped, in any order, so a message can be late or lost but not taken twice or
altered. Taking the oldest number in flight every time, without a loss, gives a queue.
-/

namespace LayerPingPong

/-! ## Histories -/

section History

variable {α : Type*} {history : List α} {x y : α} {index : ℕ}

/-- An entry of a history that has grown by one. -/
theorem getElem?_concat_eq_some_iff :
    (history ++ [x])[index]? = some y ↔
      history[index]? = some y ∨ index = history.length ∧ x = y := by
  rcases Nat.lt_trichotomy index history.length with hlt | rfl | hgt
  · rw [List.getElem?_append_left hlt]
    simp [hlt.ne]
  · simp
  · have hout : (history ++ [x])[index]? = none := by
      rw [List.getElem?_eq_none_iff, List.length_append, List.length_singleton]
      exact hgt
    simp [hout, List.getElem?_eq_none_iff.mpr hgt.le, hgt.ne']

/-- A longer history keeps its entries. -/
theorem getElem?_of_prefix {longer : List α} (hlonger : history <+: longer)
    (h : history[index]? = some y) : longer[index]? = some y := by
  obtain ⟨rest, rfl⟩ := hlonger
  rw [List.getElem?_append_left (List.getElem?_eq_some_iff.mp h).1]
  exact h

end History

/-! ## Channels -/

/-- Messages are named by their position among the published ones. -/
structure Channel (Message : Type) where
  published : List Message
  inFlight : List ℕ
  taken : List ℕ
  nodup : (inFlight ++ taken).Nodup
  lt_length : ∀ index ∈ inFlight ++ taken, index < published.length

namespace Channel

variable {Message : Type}

def empty : Channel Message where
  published := []
  inFlight := []
  taken := []
  nodup := List.nodup_nil
  lt_length := nofun

def publish (channel : Channel Message) (message : Message) : Channel Message where
  published := channel.published ++ [message]
  inFlight := channel.inFlight ++ [channel.published.length]
  taken := channel.taken
  nodup := by
    have hperm : (channel.inFlight ++ [channel.published.length] ++ channel.taken).Perm
        (channel.published.length :: (channel.inFlight ++ channel.taken)) := by
      rw [List.append_assoc, List.singleton_append]
      exact List.perm_middle
    rw [hperm.nodup_iff, List.nodup_cons]
    exact ⟨fun hmem ↦ Nat.lt_irrefl _ (channel.lt_length _ hmem), channel.nodup⟩
  lt_length index hmem := by
    have hold := channel.lt_length index
    simp only [List.mem_append, List.mem_singleton, List.length_append,
      List.length_singleton] at hmem hold ⊢
    rcases hmem with (hflight | rfl) | htaken
    · exact Nat.lt_succ_of_lt (hold (.inl hflight))
    · exact Nat.lt_succ_self _
    · exact Nat.lt_succ_of_lt (hold (.inr htaken))

theorem perm_take (channel : Channel Message) {index : ℕ} (h : index ∈ channel.inFlight) :
    (channel.inFlight.erase index ++ (channel.taken ++ [index])).Perm
      (channel.inFlight ++ channel.taken) := by
  calc
    _ = channel.inFlight.erase index ++ channel.taken ++ [index] := (List.append_assoc _ _ _).symm
    _ |>.Perm (index :: (channel.inFlight.erase index ++ channel.taken)) :=
      List.perm_append_singleton _ _
    _ |>.Perm (channel.inFlight ++ channel.taken) :=
      (List.perm_cons_erase h).symm.append_right _

/-- Hand over one message in flight. -/
def take (channel : Channel Message) (index : ℕ) : Option (Message × Channel Message) :=
  if h : index ∈ channel.inFlight then
    have hlt : index < channel.published.length :=
      channel.lt_length index (List.mem_append_left _ h)
    some (channel.published[index], {
      published := channel.published
      inFlight := channel.inFlight.erase index
      taken := channel.taken ++ [index]
      nodup := (channel.perm_take h).nodup_iff.mpr channel.nodup
      lt_length := fun other hmem ↦
        channel.lt_length other ((channel.perm_take h).mem_iff.mp hmem) })
  else none

/-- Lose one message in flight. -/
def drop (channel : Channel Message) (index : ℕ) : Option (Channel Message) :=
  if index ∈ channel.inFlight then
    some {
      published := channel.published
      inFlight := channel.inFlight.erase index
      taken := channel.taken
      nodup := channel.nodup.sublist (List.erase_sublist.append_right _)
      lt_length := fun other hmem ↦ channel.lt_length other
        ((List.erase_sublist.append_right _).subset hmem) }
  else none

/-- What taking a message does. -/
structure Took (channel : Channel Message) (index : ℕ) (message : Message)
    (next : Channel Message) : Prop where
  mem : index ∈ channel.inFlight
  message : channel.published[index]? = some message
  published : next.published = channel.published
  inFlight : next.inFlight = channel.inFlight.erase index
  taken : next.taken = channel.taken ++ [index]

theorem took_of_take {channel next : Channel Message} {index : ℕ} {message : Message}
    (h : channel.take index = some (message, next)) : channel.Took index message next := by
  unfold take at h
  split at h
  · rename_i hmem
    cases h
    exact ⟨hmem, List.getElem?_eq_getElem _, rfl, rfl, rfl⟩
  · cases h

theorem exists_take {channel : Channel Message} {index : ℕ} (h : index ∈ channel.inFlight) :
    ∃ message next, channel.take index = some (message, next) := ⟨_, _, dif_pos h⟩

/-- What losing a message does. -/
structure Dropped (channel : Channel Message) (index : ℕ) (next : Channel Message) : Prop where
  published : next.published = channel.published
  inFlight : next.inFlight = channel.inFlight.erase index
  taken : next.taken = channel.taken

theorem dropped_of_drop {channel next : Channel Message} {index : ℕ}
    (h : channel.drop index = some next) : channel.Dropped index next := by
  unfold drop at h
  split at h
  · cases h
    exact ⟨rfl, rfl, rfl⟩
  · cases h

theorem taken_nodup (channel : Channel Message) : channel.taken.Nodup :=
  channel.nodup.sublist (List.sublist_append_right _ _)

theorem taken_length_le (channel : Channel Message) :
    channel.taken.length ≤ channel.published.length := by
  have hsubset : channel.taken ⊆ List.range channel.published.length := fun index hmem ↦
    List.mem_range.mpr (channel.lt_length index (List.mem_append_right _ hmem))
  simpa using (List.subperm_of_subset channel.taken_nodup hsubset).length_le

/-! ## The messages taken -/

/-- The messages in the order in which they have been taken. -/
def messages (channel : Channel Message) : List Message :=
  channel.taken.filterMap (channel.published[·]?)

theorem messages_publish (channel : Channel Message) (message : Message) :
    (channel.publish message).messages = channel.messages := by
  apply List.filterMap_congr
  intro index hmem
  exact List.getElem?_append_left (channel.lt_length index (List.mem_append_right _ hmem))

theorem Took.messages {channel next : Channel Message} {index : ℕ} {message : Message}
    (h : channel.Took index message next) : next.messages = channel.messages ++ [message] := by
  rw [Channel.messages, h.taken, h.published, List.filterMap_append]
  exact congrArg (channel.messages ++ ·) (List.filterMap_cons_some h.message)

theorem Dropped.messages {channel next : Channel Message} {index : ℕ}
    (h : channel.Dropped index next) : next.messages = channel.messages := by
  rw [Channel.messages, h.taken, h.published]
  rfl

theorem messages_eq_map [Inhabited Message] (channel : Channel Message) :
    channel.messages = channel.taken.map fun index ↦ channel.published[index]?.getD default := by
  rw [messages, ← List.filterMap_eq_map]
  apply List.filterMap_congr
  intro index hmem
  have hlt := channel.lt_length index (List.mem_append_right _ hmem)
  change channel.published[index]? = some (channel.published[index]?.getD default)
  rw [List.getElem?_eq_getElem hlt]
  rfl

/-! ## Conservation -/

/-- Every message published has been taken, is in flight or is one of the lost ones. -/
def Accounts (channel : Channel Message) (lost : ℕ) : Prop :=
  channel.published.length = channel.taken.length + channel.inFlight.length + lost

theorem length_publish (channel : Channel Message) (message : Message) :
    (channel.publish message).inFlight.length = channel.inFlight.length + 1 := List.length_append

theorem Took.length {channel next : Channel Message} {index : ℕ} {message : Message}
    (h : channel.Took index message next) :
    next.inFlight.length + 1 = channel.inFlight.length := by
  rw [h.inFlight, List.length_erase_add_one h.mem]

theorem mem_of_drop {channel next : Channel Message} {index : ℕ}
    (h : channel.drop index = some next) : index ∈ channel.inFlight := by
  by_contra hnot
  rw [drop, if_neg hnot] at h
  cases h

theorem Dropped.length {channel next : Channel Message} {index : ℕ}
    (h : channel.Dropped index next) (hmem : index ∈ channel.inFlight) :
    next.inFlight.length + 1 = channel.inFlight.length := by
  rw [h.inFlight, List.length_erase_add_one hmem]

theorem inFlight_eq_nil {channel : Channel Message} (h : ∀ index, channel.drop index = none) :
    channel.inFlight = [] := by
  cases hflight : channel.inFlight with
  | nil => rfl
  | cons index rest =>
    have hdrop := h index
    simp [drop, hflight] at hdrop

theorem accounts_empty : (empty : Channel Message).Accounts 0 := rfl

theorem Accounts.publish {channel : Channel Message} {lost : ℕ} (h : channel.Accounts lost)
    (message : Message) : (channel.publish message).Accounts lost := by
  have hlength : (channel.publish message).published.length = channel.published.length + 1 :=
    List.length_append
  unfold Accounts at h ⊢
  rw [length_publish, hlength, h]
  change _ = channel.taken.length + _ + lost
  omega

theorem Accounts.took {channel next : Channel Message} {index lost : ℕ} {message : Message}
    (h : channel.Accounts lost) (htook : channel.Took index message next) :
    next.Accounts lost := by
  have hlength := htook.length
  unfold Accounts at h ⊢
  rw [htook.published, htook.taken, List.length_append, List.length_singleton]
  omega

theorem Accounts.dropped {channel next : Channel Message} {index lost : ℕ}
    (h : channel.Accounts lost) (hdropped : channel.Dropped index next)
    (hmem : index ∈ channel.inFlight) : next.Accounts (lost + 1) := by
  have hlength := hdropped.length hmem
  unfold Accounts at h ⊢
  rw [hdropped.published, hdropped.taken]
  omega

/-! ## Several losses -/

/-- Lose several messages in flight. -/
def dropAll (channel : Channel Message) (indices : List ℕ) : Option (Channel Message) :=
  indices.foldlM drop channel

theorem exists_drop {channel : Channel Message} {index : ℕ} (h : index ∈ channel.inFlight) :
    ∃ next, channel.drop index = some next := ⟨_, if_pos h⟩

/-- Messages in flight can be lost, and the others stay. -/
theorem exists_dropAll {channel : Channel Message} {indices rest : List ℕ}
    (h : channel.inFlight.Perm (indices ++ rest)) :
    ∃ next, channel.dropAll indices = some next ∧ next.published = channel.published ∧
      next.taken = channel.taken ∧ next.inFlight.Perm rest := by
  induction indices generalizing channel with
  | nil => exact ⟨channel, rfl, rfl, rfl, h⟩
  | cons index indices ih =>
    obtain ⟨middle, hdrop⟩ := exists_drop (h.symm.subset List.mem_cons_self)
    have hdropped := dropped_of_drop hdrop
    have hmiddle : middle.inFlight.Perm (indices ++ rest) := by
      rw [hdropped.inFlight]
      have herase := h.erase index
      rwa [List.cons_append, List.erase_cons_head] at herase
    obtain ⟨next, hnext, hpublished, htaken, hrest⟩ := ih hmiddle
    refine ⟨next, ?_, hpublished.trans hdropped.published, htaken.trans hdropped.taken, hrest⟩
    rw [dropAll, List.foldlM_cons, hdrop]
    exact hnext

/-! ## Two channels with corresponding messages -/

section Corresponds

variable {Message' : Type} {related : Message → Message' → Prop}

/-- The same numbers are in flight and have been taken, and they name related messages. -/
structure Corresponds (related : Message → Message' → Prop) (channel : Channel Message)
    (other : Channel Message') : Prop where
  published : List.Forall₂ related channel.published other.published
  inFlight : channel.inFlight = other.inFlight
  taken : channel.taken = other.taken

theorem corresponds_empty (related : Message → Message' → Prop) :
    (empty : Channel Message).Corresponds related empty := ⟨.nil, rfl, rfl⟩

variable {channel : Channel Message} {other : Channel Message'}

theorem Corresponds.publish (h : channel.Corresponds related other) {message : Message}
    {message' : Message'} (hmessage : related message message') :
    (channel.publish message).Corresponds related (other.publish message') where
  published := List.rel_append h.published (.cons hmessage .nil)
  inFlight := by
    change channel.inFlight ++ [_] = other.inFlight ++ [_]
    rw [h.inFlight, h.published.length_eq]
  taken := h.taken

/-- What can be taken from one can be taken from the other. -/
theorem Corresponds.take (h : channel.Corresponds related other) (index : ℕ) :
    Option.Rel (fun taken taken' ↦ related taken.1 taken'.1 ∧ taken.2.Corresponds related taken'.2)
      (channel.take index) (other.take index) := by
  by_cases hmem : index ∈ channel.inFlight
  · have hmem' : index ∈ other.inFlight := h.inFlight ▸ hmem
    rw [Channel.take, Channel.take, dif_pos hmem, dif_pos hmem']
    apply Option.Rel.some
    refine ⟨h.published.get _ _, h.published, ?_, ?_⟩
    · change channel.inFlight.erase index = other.inFlight.erase index
      rw [h.inFlight]
    · change channel.taken ++ [index] = other.taken ++ [index]
      rw [h.taken]
  · have hmem' : index ∉ other.inFlight := h.inFlight ▸ hmem
    rw [Channel.take, Channel.take, dif_neg hmem, dif_neg hmem']
    exact .none

theorem Corresponds.drop (h : channel.Corresponds related other) (index : ℕ) :
    Option.Rel (Corresponds related) (channel.drop index) (other.drop index) := by
  by_cases hmem : index ∈ channel.inFlight
  · have hmem' : index ∈ other.inFlight := h.inFlight ▸ hmem
    rw [Channel.drop, Channel.drop, if_pos hmem, if_pos hmem']
    apply Option.Rel.some
    refine ⟨h.published, ?_, h.taken⟩
    change channel.inFlight.erase index = other.inFlight.erase index
    rw [h.inFlight]
  · have hmem' : index ∉ other.inFlight := h.inFlight ▸ hmem
    rw [Channel.drop, Channel.drop, if_neg hmem, if_neg hmem']
    exact .none

end Corresponds

/-! ## Queues -/

/-- The messages have been taken in the order of their publication, and none is lost. -/
structure InOrder (channel : Channel Message) : Prop where
  taken : channel.taken = List.range channel.taken.length
  inFlight : channel.inFlight =
    List.range' channel.taken.length (channel.published.length - channel.taken.length)

theorem inOrder_empty : (empty : Channel Message).InOrder := ⟨rfl, rfl⟩

theorem InOrder.publish {channel : Channel Message} (h : channel.InOrder) (message : Message) :
    (channel.publish message).InOrder := by
  refine ⟨h.taken, ?_⟩
  have hle := channel.taken_length_le
  change channel.inFlight ++ [channel.published.length] = List.range' channel.taken.length
    ((channel.published ++ [message]).length - channel.taken.length)
  rw [List.length_append, List.length_singleton, Nat.sub_add_comm hle, List.range'_concat,
    ← h.inFlight, Nat.one_mul, Nat.add_sub_cancel' hle]

/-- Taking the oldest message takes the next number. -/
theorem InOrder.took {channel next : Channel Message} (h : channel.InOrder) {index : ℕ}
    {message : Message} (htook : channel.Took index message next)
    (holdest : channel.inFlight.head? = some index) :
    index = channel.taken.length ∧ next.InOrder := by
  obtain ⟨rest, hrest⟩ : ∃ rest, channel.published.length - channel.taken.length = rest + 1 := by
    refine Nat.exists_eq_succ_of_ne_zero fun hzero ↦ ?_
    rw [h.inFlight, hzero] at holdest
    cases holdest
  have hflight := h.inFlight
  rw [hrest, List.range'_succ] at hflight
  obtain rfl : channel.taken.length = index := by
    rw [hflight] at holdest
    exact Option.some.inj holdest
  refine ⟨rfl, ?_, ?_⟩
  · rw [htook.taken, List.length_append, List.length_singleton, List.range_succ, ← h.taken]
  · rw [htook.inFlight, htook.taken, htook.published, hflight, List.erase_cons_head,
      List.length_append, List.length_singleton, Nat.sub_add_eq, hrest, Nat.add_sub_cancel]

end Channel

end LayerPingPong
