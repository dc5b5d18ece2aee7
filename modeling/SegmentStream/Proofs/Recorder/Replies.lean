import SegmentStream.Proofs.Recorder.Rotating

/-!
# Replies

What each call is answered.  Where storage does not fail, a reply is a matter of
the call, of the configuration, and of whether the recorder was shut down.
-/

namespace SegmentStream

open SegmentStream.Action

namespace Session

/-- The answer to a call; one to a batch gives the number of its records. -/
def reply : Call → Action StreamError Session (Option Nat)
  | .work items tags => some <$> work items tags
  | call => (fun _ => none) <$> answer call

/-- The replies to calls, in order, accepted or not. -/
def replies : Session → List Call → List (Except StreamError (Option Nat))
  | _, [] => []
  | session, call :: rest =>
      ((reply call).run session).1 :: replies ((answer call).stateAfter session) rest

theorem ends_reply {call : Call} (hother : ∀ items tags, call ≠ .work items tags)
    {session : Session} {good : Option Nat → Session → Prop} {bad : StreamError → Session → Prop} :
    Ends (reply call) session good bad ↔
      Ends (answer call) session (fun _ next => good none next) bad := by
  cases call with
  | work items tags => exact absurd rfl (hother items tags)
  | _ => exact ends_map _ _

theorem stateAfter_reply (session : Session) (call : Call) :
    (reply call).stateAfter session = (answer call).stateAfter session := by
  have hmap {result result' : Type} (f : result → result')
      (action : Action StreamError Session result) :
      (f <$> action).stateAfter session = action.stateAfter session := by
    change Action.stateAfter (EStateM.map f action) session = _
    simp only [Action.stateAfter, EStateM.map]
    cases action session <;> rfl
  cases call with
  | work items tags =>
      have hdiscard : answer (.work items tags) = (fun _ => ()) <$> work items tags := rfl
      rw [hdiscard, hmap]
      exact hmap some _
  | _ => exact hmap _ _

theorem replies_append (session : Session) (first later : List Call) :
    session.replies (first ++ later) =
      session.replies first ++ (session.after first).replies later := by
  induction first generalizing session with
  | nil => rfl
  | cons call rest ih =>
      simp only [List.cons_append, replies, ih]
      rfl

end Session

namespace Chronicle

/-- What a call is answered where storage does not fail. -/
def reply (config : Config) (chronicle : Chronicle) : Call → Except StreamError (Option Nat)
  | .work items _ =>
      if chronicle.closed then .error (.misuse .shutDown)
      else if items.length % config.itemSize.toNat ≠ 0 then
        .error (.misuse (.brokenRecord items.length config.itemSize.toNat))
      else .ok (some (items.length / config.itemSize.toNat))
  | .update key value =>
      match HeaderUpdate.prepare config.recordSize key value with
      | .error cause => .error (.refused cause)
      | .ok _ => .ok none
  | .rotate destination =>
      if destination.fits config.splitHeader then .ok none
      else if config.splitHeader then .error (.misuse .missingHeaderChannel)
      else .error (.misuse .unexpectedHeaderChannel)
  | _ => .ok none

def replies (config : Config) : Chronicle → List Call → List (Except StreamError (Option Nat))
  | _, [] => []
  | chronicle, call :: rest =>
      chronicle.reply config call :: replies config (chronicle.step config call) rest

end Chronicle

namespace Action

variable {fault state result : Type}

theorem run_of_ok {action : Action fault state result} {current : state} {value : result}
    (h : Ends action current (fun found _ => found = value) fun _ _ => False) :
    (action.run current).1 = .ok value := by
  obtain ⟨found, next, hok, rfl⟩ := h.exists_ok
  simp [run, hok]

theorem run_of_error {action : Action fault state result} {current : state} {cause : fault}
    (h : Ends action current (fun _ _ => False) fun found _ => found = cause) :
    (action.run current).1 = .error cause := by
  unfold Ends at h
  unfold run
  split at h
  · exact h.elim
  · simp_all

/-- What an action answers with, and the state it ends in. -/
theorem run_of_ends {action : Action fault state result} {current : state}
    {good : result → state → Prop} {bad : fault → state → Prop}
    (h : Ends action current good bad) :
    (∃ value, (action.run current).1 = .ok value ∧ good value (action.stateAfter current)) ∨
      ∃ cause, (action.run current).1 = .error cause ∧ bad cause (action.stateAfter current) := by
  cases hends : action current with
  | ok value next =>
      refine .inl ⟨value, ?_, ?_⟩
      · simp only [run, hends]
      · simpa only [Action.stateAfter, hends] using h.of_ok hends
  | error cause next =>
      refine .inr ⟨cause, ?_, ?_⟩
      · simp only [run, hends]
      · simpa only [Action.stateAfter, hends] using h.of_error hends

end Action

namespace Session

section Replies

variable {session : Session} {config : Config} {chronicle : Chronicle} {others : List Possession}

theorem work_reply (hvalid : config.validate = .ok ()) (h : session.Tells config chronicle others)
    (items : Bytes) (tags : List Tag) :
    ((reply (.work items tags)).run session).1 = chronicle.reply config (.work items tags) := by
  have hclosed := h.closed
  have hconfig := h.config
  rw [Chronicle.reply]
  cases hopen : chronicle.closed with
  | true =>
      rw [hopen] at hclosed
      apply run_of_error
      simp only [reply, work, ends_map, ends_bind, ends_get, hclosed, if_true, ends_throw]
  | false =>
      rw [hopen] at hclosed
      by_cases hbroken : items.length % config.itemSize.toNat ≠ 0
      · rw [if_pos hbroken]
        apply run_of_error
        simp only [reply, work, ends_map, ends_bind, ends_get, hclosed, hconfig, if_pos hbroken,
          ends_throw, Bool.false_eq_true, if_false]
      · rw [if_neg hbroken]
        apply run_of_ok
        rw [reply, ends_map]
        refine (work_tells hvalid h items tags).mono ?_ ?_
        · rintro total next ⟨rfl, -⟩
          rfl
        · rintro error next ⟨hrefused, -⟩
          simp [hopen, hbroken] at hrefused

theorem update_reply (h : session.Tells config chronicle others) (key : String)
    (value : Attribute) :
    ((reply (.update key value)).run session).1 =
      chronicle.reply config (.update key value) := by
  rw [Chronicle.reply]
  cases hactive : session.recorder.active with
  | none =>
      obtain ⟨htells, hproper, -, -⟩ := h.rests hactive
      have hprepare := prepare_eq htells key value
      rw [Transcript.itemSize, hproper.headers.itemSize] at hprepare
      cases hupdate : HeaderUpdate.prepare config.recordSize key value with
      | error cause =>
          apply run_of_error
          simp [reply, answer, updateAttribute, hprepare, hupdate]
      | ok update =>
          apply run_of_ok
          simp [reply, answer, updateAttribute, hprepare, hupdate, hactive]
  | some target =>
      obtain ⟨hkeeps, hproper, -, -, hquiet⟩ := h.records target hactive
      have hsize : chronicle.tape.itemSize = config.recordSize := hproper.headers.itemSize
      have hends := updateAttribute_ends hactive hkeeps hquiet config.ceiling key value
      rw [hsize] at hends
      cases hupdate : HeaderUpdate.prepare config.recordSize key value with
      | error cause =>
          apply run_of_error
          rw [ends_reply (by simp)]
          apply hends.mono
          · rintro ⟨⟩ next ⟨update, haccepted, -⟩
            rw [hupdate] at haccepted
            cases haccepted
          · rintro error next ⟨cause', rfl, hrefused, -⟩
            rw [hupdate] at hrefused
            cases hrefused
            rfl
      | ok update =>
          apply run_of_ok
          rw [ends_reply (by simp)]
          apply hends.mono
          · exact fun _ _ _ => rfl
          · rintro error next ⟨cause, -, hrefused, -⟩
            rw [hupdate] at hrefused
            cases hrefused

theorem rotate_reply {destination : Destination}
    (h : session.Tells config chronicle
      ((destinationsOf config.splitHeader [.rotate destination]).map .reserved ++ others)) :
    ((reply (.rotate destination)).run session).1 =
      chronicle.reply config (.rotate destination) := by
  rw [Chronicle.reply]
  rw [destinationsOf_rotate] at h
  split
  · rename_i hfits
    rw [if_pos hfits] at h
    apply run_of_ok
    rw [ends_reply (by simp)]
    exact (requestRotation_tells h).mono (fun _ _ _ => rfl) fun _ _ => id
  · rename_i hfits
    have hsplit := h.split
    cases destination with
    | file path => simp [Destination.fits] at hfits
    | memory data header => simp [Destination.fits] at hfits
    | channels data header =>
        simp only [Destination.fits, beq_iff_eq] at hfits
        cases header <;> cases hapart : config.splitHeader
        all_goals
          rw [hapart] at hfits hsplit
          first
          | exact absurd rfl hfits
          | apply run_of_error
            simp [reply, answer, requestRotation, onRotation, RotationDesk.requestRotation,
              RotationDesk.onHost, Target.openAt, Destination.openChannels, hsplit]

/-- A recorder answers as the chronicle does. -/
theorem reply_eq (hvalid : config.validate = .ok ()) (call : Call)
    (h : session.Tells config chronicle
      ((destinationsOf config.splitHeader [call]).map .reserved ++ others)) :
    ((reply call).run session).1 = chronicle.reply config call := by
  cases call with
  | work items tags => exact work_reply hvalid h items tags
  | update key value => exact update_reply h key value
  | setUnbuffered unbuffered =>
      apply run_of_ok
      simp [reply, answer, setUnbuffered]
  | rotate destination => exact rotate_reply h
  | close =>
      apply run_of_ok
      rw [ends_reply (by simp)]
      exact (requestClose_tells h).mono (fun _ _ _ => rfl) fun _ _ => id
  | shutdown =>
      apply run_of_ok
      rw [ends_reply (by simp)]
      exact (shutdown_tells h).mono (fun _ _ _ => rfl) fun _ _ => id

theorem replies_eq (hvalid : config.validate = .ok ()) (calls : List Call)
    (h : session.Tells config chronicle
      ((destinationsOf config.splitHeader calls).map .reserved ++ others)) :
    session.replies calls = chronicle.replies config calls := by
  induction calls generalizing session chronicle with
  | nil => rfl
  | cons call rest ih =>
      rw [destinationsOf_cons, List.map_append, List.append_assoc] at h
      rw [replies, Chronicle.replies, reply_eq hvalid call h,
        ih (answer_tells hvalid call h).stateAfter]

end Replies

end Session

end SegmentStream
