import SegmentStream.Proofs.Recorder.Portraits
import SegmentStream.Proofs.Recorder.Routing

/-!
# Runs that are served

On blank destinations in memory, apart from each other and without planned
faults, storage serves every run.
-/

namespace SegmentStream

open SegmentStream.Action

section Blank

variable {destination : Destination} {split : Bool} {host : Host}

/-- A blank destination is sought in its own places. -/
theorem Destination.IsBlank.sought_eq {store : Store} (h : destination.IsBlank split store)
    (store' : Store) : destination.sought split store' = destination.places split := by
  cases destination with
  | file path => exact h.elim
  | memory data header => rfl
  | channels data header =>
      obtain ⟨hfits, -, -⟩ := h
      simp [Destination.sought, Destination.fits, hfits]

theorem Destination.sought_of_not_fits (h : destination.fits split = false) (store : Store) :
    destination.sought split store = [] := by
  cases destination with
  | file path => cases h
  | memory data header => cases h
  | channels data header => simp [Destination.sought, h]

theorem Destination.IsBlank.openAt_isFresh (h : destination.IsBlank split host.store) :
    Ends (Target.openAt destination split) host
      (fun target next => target.IsFresh next.store) fun _ _ => False := by
  cases destination with
  | file path => exact h.elim
  | memory data header =>
      exact (Target.openAt_inMemory data header ..).mono (fun _ _ hopened => hopened.2.1)
        fun _ _ => id
  | channels data header =>
      obtain ⟨hfits, hblank, -⟩ := h
      cases split <;> cases header
      · exact fun channel hchannel =>
          ⟨(hblank channel hchannel).position, (hblank channel hchannel).pending,
            (hblank channel hchannel).empty⟩
      · cases hfits
      · cases hfits
      · exact fun channel hchannel =>
          ⟨(hblank channel hchannel).position, (hblank channel hchannel).pending,
            (hblank channel hchannel).empty⟩

end Blank

/-- Where no channel fails, what is refused is refused for other causes. -/
theorem Chronicle.reply_not_isExcused {config : Config} {chronicle : Chronicle} {call : Call}
    {error : StreamError} (h : chronicle.reply config call = .error error) :
    ¬ error.IsExcused fun _ => True := by
  intro hstorage
  cases call with
  | work items tags =>
      rw [reply] at h
      split at h
      · obtain rfl := Except.error.inj h
        exact hstorage
      · split at h
        · obtain rfl := Except.error.inj h
          exact hstorage
        · cases h
  | update key value =>
      rw [reply] at h
      split at h
      · obtain rfl := Except.error.inj h
        exact hstorage
      · cases h
  | rotate destination =>
      rw [reply] at h
      split at h
      · cases h
      · split at h
        · obtain rfl := Except.error.inj h
          exact hstorage
        · obtain rfl := Except.error.inj h
          exact hstorage
  | _ => cases h

namespace Session

section Served

variable {config : Config} {chronicle : Chronicle} {others : List Possession} {session : Session}

theorem Tells.isSpared (hvalid : config.validate = .ok ()) (calls : List Call)
    (h : session.Tells config chronicle
      ((destinationsOf config.splitHeader calls).map .reserved ++ others)) :
    IsSpared (fun _ => True) session calls := by
  induction calls generalizing session chronicle with
  | nil => exact fun _ herror => by cases herror
  | cons call rest ih =>
      rw [destinationsOf_cons, List.map_append, List.append_assoc] at h
      intro error herror
      rcases List.mem_cons.mp herror with hreply | hrest
      · rw [reply_eq hvalid call h] at hreply
        exact Chronicle.reply_not_isExcused hreply.symm
      · exact ih (answer_tells hvalid call h).stateAfter error hrest

/-- What a call opens is fresh, and is where the destination says. -/
theorem Tells.opening_isFresh (call : Call)
    (h : session.Tells config chronicle
      ((destinationsOf config.splitHeader [call]).map .reserved ++ others)) :
    (∀ opening ∈ session.opening call, opening.IsFresh) ∧ session.soughtBy call =
      (destinationsOf config.splitHeader [call]).flatMap (Destination.places config.splitHeader) := by
  have hconfig := h.config
  cases call with
  | rotate destination =>
      rw [destinationsOf_rotate] at h ⊢
      by_cases hfits : destination.fits config.splitHeader = true
      · rw [if_pos hfits] at h ⊢
        have hblank := (h.possessions.stand (.reserved destination)
          (List.mem_append_right _ (List.mem_append_right _ List.mem_cons_self))).1
        constructor
        · intro opening hopening
          have hopened := opened_of_opening hopening
          rw [hconfig] at hopened
          exact hblank.openAt_isFresh.of_ok hopened
        · rw [soughtBy, hconfig, hblank.sought_eq, List.flatMap_singleton]
      · rw [if_neg hfits]
        rw [Bool.not_eq_true] at hfits
        constructor
        · intro opening hopening
          have hopened := opened_of_opening hopening
          rw [hconfig] at hopened
          exact (Target.openAt_refused hfits).of_ok hopened |>.elim
        · rw [soughtBy, hconfig, Destination.sought_of_not_fits hfits]
          rfl
  | _ => exact ⟨fun _ hnone => (by cases hnone), rfl⟩

theorem Tells.openings_isFresh (hvalid : config.validate = .ok ()) (calls : List Call)
    (h : session.Tells config chronicle
      ((destinationsOf config.splitHeader calls).map .reserved ++ others)) :
    (∀ opening ∈ session.openings calls, opening.IsFresh) ∧ session.sought calls =
      (destinationsOf config.splitHeader calls).flatMap (Destination.places config.splitHeader) := by
  induction calls generalizing session chronicle with
  | nil => exact ⟨List.forall_mem_nil _, rfl⟩
  | cons call rest ih =>
      rw [destinationsOf_cons, List.map_append, List.append_assoc] at h
      obtain ⟨hfresh, hsought⟩ := ih (answer_tells hvalid call h).stateAfter
      obtain ⟨hfirst, hplaces⟩ := Tells.opening_isFresh call h
      constructor
      · rw [openings, List.forall_mem_append]
        exact ⟨fun opening hopening => hfirst opening (Option.mem_toList.mp hopening), hfresh⟩
      · rw [sought, destinationsOf_cons, List.flatMap_append, hsought, hplaces]

end Served

end Session

/-- A clean run starts, and storage serves it. -/
theorem Run.IsClean.exists_served {run : Run} (h : run.IsClean) :
    ∃ first session, Recorder.Launches run.config run.destination run.host first session ∧
      session.IsServed first run.calls := by
  obtain ⟨headers, recorder, started, hheaders, hstart, hbegun⟩ := h.exists_tells
  have htells : Session.Tells ⟨recorder, started⟩ run.config
      (Chronicle.start run.config run.destination headers)
      ((destinationsOf run.config.splitHeader run.calls).map .reserved ++ []) := by
    rw [List.append_nil]
    exact hbegun [] run.calls rfl
  have hvalid := h.usable.1
  have hblank := (h.blank run.destination List.mem_cons_self).1
  obtain ⟨target, opened, hopened, hfresh⟩ := hblank.openAt_isFresh.exists_ok
  have hopens := (Target.openAt_opens ..).of_ok hopened
  obtain ⟨hopenings, hsought⟩ := Session.Tells.openings_isFresh hvalid run.calls htells
  refine ⟨⟨target, opened⟩, ⟨recorder, started⟩, ⟨hopened, hstart⟩, ?_⟩
  constructor
  · exact Session.Tells.isSpared hvalid run.calls htells
  · exact List.forall_mem_cons.mpr ⟨hfresh, hopenings⟩
  · have happart := h.apart
    rw [Run.destinations, List.flatMap_cons] at happart
    rw [hsought, hopens.places, hblank.sought_eq]
    exact happart

end SegmentStream
