import SegmentStream.Storage.Channel

/-!
# Deliveries

Bytes are offered to a channel again and again until it has taken them all or
refuses.  An interrupted write is repeated; since only so many interruptions
are planned, every delivery ends.
-/

namespace SegmentStream

/-- How much of what was offered got stored, and why no more. -/
structure Delivery where
  stored : Nat
  fault : Option IoFault
  deriving DecidableEq, Repr

namespace Port

/-! ## Every delivery ends -/

theorem lookup_of_interrupted {bytes : Bytes} {port next : Port}
    (h : write bytes port = .error .interrupted next) :
    port.channel.faults.ofWrite? port.channel.calls.writes = some .interrupted := by
  unfold write at h
  simp only at h
  split at h
  · assumption
  · simp at h
  · split at h
    · split at h <;> simp at h
    · simp at h

theorem mem_of_lookup {writes : List (Nat × WriteFault)} {call : Nat} {fault : WriteFault}
    (h : writes.lookup call = some fault) : (call, fault) ∈ writes := by
  induction writes with
  | nil => simp at h
  | cons head rest ih =>
      obtain ⟨other, held⟩ := head
      rw [List.lookup_cons] at h
      split at h
      · rename_i heq
        simp_all
      · exact List.mem_cons_of_mem _ (ih h)

theorem interruptionsLeft_le (bytes : Bytes) (port : Port) :
    ((write bytes).stateAfter port).channel.interruptionsLeft ≤
      port.channel.interruptionsLeft := by
  obtain ⟨hwrites, hcalls⟩ := write_channel bytes port
  simp only [Channel.interruptionsLeft, hwrites, hcalls, ← List.countP_eq_length_filter]
  apply List.countP_mono_left
  intro fault _ h
  simp only [Bool.and_eq_true, decide_eq_true_eq] at h ⊢
  exact ⟨by omega, h.2⟩

theorem countP_lt_of_mem {α : Type} {p q : α → Bool} {list : List α} {x : α}
    (hpq : ∀ y ∈ list, p y = true → q y = true) (hmem : x ∈ list) (hp : p x = false)
    (hq : q x = true) : list.countP p < list.countP q := by
  induction list with
  | nil => simp at hmem
  | cons head rest ih =>
      have hrest : ∀ y ∈ rest, p y = true → q y = true := fun y hy =>
        hpq y (List.mem_cons_of_mem _ hy)
      have hle := List.countP_mono_left hrest
      rcases List.mem_cons.mp hmem with rfl | hmem
      · simp [hp, hq]
        omega
      · have := ih hrest hmem
        have hhead := hpq head List.mem_cons_self
        simp only [List.countP_cons]
        by_cases hph : p head = true
        · simp only [hph, hhead hph, if_true]
          omega
        · simp only [hph, Bool.false_eq_true, if_false]
          omega

theorem interruptionsLeft_lt {bytes : Bytes} {port next : Port}
    (h : write bytes port = .error .interrupted next) :
    next.channel.interruptionsLeft < port.channel.interruptionsLeft := by
  have hnext : next = (write bytes).stateAfter port := by simp [Action.stateAfter, h]
  obtain ⟨hwrites, hcalls⟩ := write_channel bytes port
  rw [hnext]
  simp only [Channel.interruptionsLeft, hwrites, hcalls, ← List.countP_eq_length_filter]
  apply countP_lt_of_mem (x := (port.channel.calls.writes, .interrupted))
  · intro fault _ h
    simp only [Bool.and_eq_true, decide_eq_true_eq] at h ⊢
    exact ⟨by omega, h.2⟩
  · exact mem_of_lookup (lookup_of_interrupted h)
  · simp
  · simp

/-! ## Delivering -/

/--
Offers bytes until all are taken or a write refuses.  `refusal` is the cause
given for a write that takes nothing.
-/
def deliver (refusal : IoFault) (bytes : Bytes) (port : Port) : Delivery × Port :=
  if bytes = [] then (⟨0, none⟩, port)
  else
    match _h : write bytes port with
    | .ok 0 next => (⟨0, some refusal⟩, next)
    | .ok (count + 1) next =>
        let (rest, next) := deliver refusal (bytes.drop (count + 1)) next
        (⟨count + 1 + rest.stored, rest.fault⟩, next)
    | .error .interrupted next => deliver refusal bytes next
    | .error fault next => (⟨0, some fault⟩, next)
termination_by bytes.length + port.channel.interruptionsLeft
decreasing_by
  · have hnext : next = (write bytes).stateAfter port := by simp [Action.stateAfter, _h]
    have := interruptionsLeft_le bytes port
    have : 0 < bytes.length := List.length_pos_iff.mpr (by assumption)
    simp only [hnext, List.length_drop]
    omega
  · have := interruptionsLeft_lt _h
    omega

def writeAll (bytes : Bytes) : Action IoFault Port Unit := fun port =>
  let (delivery, port) := deliver .incomplete bytes port
  match delivery.fault with
  | none => .ok () port
  | some fault => .error fault port

def rewind (length : Nat) : Action IoFault Port Unit := do
  truncate length
  discard (seek (.start length))

/-- Lets go of the channel.  What was held back is still stored. -/
def release (port : Port) : Store := port.settle.store

end Port

end SegmentStream
