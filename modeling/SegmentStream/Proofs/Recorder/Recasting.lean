import Mathlib.Data.List.ReduceOption
import SegmentStream.Proofs.Recorder.Replies
import SegmentStream.Proofs.Recorder.Tally

/-!
# Chronicles with other flags on other places

The flags of a header say where the header stands, and nothing that is recorded
depends on them.  A chronicle whose headers have other flags and whose targets
have other places takes the same steps and gives the same replies.
-/

namespace SegmentStream

/-! ## Headers and segments -/

def Header.withFlags (flags : UInt8) (header : Header) : Header := { header with flags }

def Segment.withFlags (flags : UInt8) (segment : Segment) : Segment :=
  { segment with header := segment.header.withFlags flags }

namespace HeaderState

def withFlags (flags : UInt8) (state : HeaderState) : HeaderState :=
  { state with header := state.header.withFlags flags }

section Flags

variable (flags : UInt8) (state : HeaderState)

theorem applySome_withFlags (update : Option HeaderUpdate) :
    (state.withFlags flags).applySome update = (state.applySome update).withFlags flags := by
  cases update with
  | none => rfl
  | some update => cases update <;> rfl

theorem fresh_withFlags : (state.withFlags flags).fresh = state.fresh.withFlags flags := rfl

theorem withFlags_eq {flags : UInt8} {state : HeaderState} (h : state.header.flags = flags) :
    state.withFlags flags = state := by
  rw [← h]
  rfl

end Flags

/-- Another layout starts with the same header but for the flags. -/
theorem start_withFlags {config : Config} {headers : HeaderState}
    (h : HeaderState.start config = .ok headers) (split : Bool) :
    HeaderState.start { config with splitHeader := split } =
      .ok (headers.withFlags (if split then detachedFlag else 0)) := by
  cases hextras : Extras.decode config.extras with
  | error fault =>
      simp only [start, hextras] at h
      cases h
  | ok extras =>
      by_cases hlimit : Config.itemSizeLimit < config.itemSize.toNat
      · simp only [start, hextras, if_pos hlimit] at h
        cases h
      · simp only [start, hextras, if_neg hlimit, pure_bind] at h ⊢
        split at h
        · next hvalid =>
            cases h
            split
            · rfl
            · next hfault => cases hvalid.symm.trans hfault
        · cases h

end HeaderState

/-! ## Transcripts -/

namespace Transcript

def withFlags (flags : UInt8) (transcript : Transcript) : Transcript :=
  { transcript with
    closed := transcript.closed.map (Segment.withFlags flags)
    headers := transcript.headers.withFlags flags }

section Flags

variable (flags : UInt8) (transcript : Transcript)

theorem close_withFlags :
    (transcript.withFlags flags).close = transcript.close.withFlags flags := by
  cases hrunning : transcript.running with
  | none => simp [close, withFlags, hrunning]
  | some running =>
      have hsame : (transcript.withFlags flags).running = some running := hrunning
      rw [close_of_running hrunning, close_of_running hsame]
      simp only [withFlags, List.map_append, List.map_singleton]
      rfl

theorem openNext_withFlags :
    (transcript.withFlags flags).openNext = transcript.openNext.withFlags flags := rfl

theorem apply_withFlags (update : Option HeaderUpdate) :
    (transcript.withFlags flags).apply update = (transcript.apply update).withFlags flags := by
  simp [apply, withFlags, HeaderState.applySome_withFlags, HeaderState.fresh_withFlags]

theorem amend_withFlags :
    (transcript.withFlags flags).amend = transcript.amend.withFlags flags := by
  cases hrunning : transcript.running with
  | none => simp [amend, withFlags, hrunning]
  | some running =>
      have hsame : (transcript.withFlags flags).running = some running := hrunning
      rw [amend_of_running hrunning, amend_of_running hsame]
      rfl

theorem boundary_withFlags (update : Option HeaderUpdate) :
    (transcript.withFlags flags).boundary update =
      (transcript.boundary update).withFlags flags := by
  have hsame : (transcript.withFlags flags).running = transcript.running := rfl
  unfold boundary
  rw [hsame]
  simp only [close_withFlags, apply_withFlags, openNext_withFlags, amend_withFlags]
  rcases transcript.running with _ | ⟨slotLength, _ | ⟨record, rest⟩⟩ <;> rfl

theorem step_withFlags (ceiling : Nat) (act : Act) :
    (transcript.withFlags flags).step ceiling act =
      (transcript.step ceiling act).withFlags flags := by
  cases act with
  | record bytes =>
      have hroomy : (transcript.withFlags flags).makeRoom ceiling =
          (transcript.makeRoom ceiling).withFlags flags := by
        unfold makeRoom roll
        change (if transcript.room ceiling = 0 then _ else _) = _
        split
        · rw [close_withFlags, openNext_withFlags]
        · rfl
      rw [step, hroomy]
      rfl
  | cut update => exact boundary_withFlags flags (transcript.countTag update) update

theorem play_withFlags (ceiling : Nat) (acts : List Act) :
    (transcript.withFlags flags).play ceiling acts =
      (transcript.play ceiling acts).withFlags flags := by
  induction acts generalizing transcript with
  | nil => rfl
  | cons act rest ih => rw [play_cons, play_cons, step_withFlags, ih]

theorem segments_withFlags :
    (transcript.withFlags flags).segments =
      transcript.segments.map (Segment.withFlags flags) := by
  cases hrunning : transcript.running <;>
    simp [segments, withFlags, hrunning, Segment.withFlags, HeaderState.withFlags]

end Flags

end Transcript

/-! ## Chronicles -/

def Chapter.recast (flags : UInt8) (place : List Location → List Location)
    (chapter : Chapter) : Chapter :=
  ⟨place chapter.places, chapter.segments.map (Segment.withFlags flags)⟩

/-- The call means the same in another layout, on the places that are put for these. -/
def Call.Recasts (place : List Location → List Location) (split split' : Bool) : Call → Prop
  | .rotate destination => destination.fits split = true ∧ destination.fits split' = true ∧
      place (destination.places split) = destination.places split'
  | _ => True

namespace Chronicle

/-- The same with other flags, on other places. -/
def recast (flags : UInt8) (place : List Location → List Location)
    (chronicle : Chronicle) : Chronicle :=
  { chronicle with
    past := chronicle.past.map (Chapter.recast flags place)
    current := chronicle.current.map place
    tape := chronicle.tape.withFlags flags
    staged := chronicle.staged.map (Option.map place)
    unused := chronicle.unused.map place }

section Recast

variable (flags : UInt8) (place : List Location → List Location) (chronicle : Chronicle)

theorem retire_recast :
    (chronicle.recast flags place).retire = chronicle.retire.recast flags place := by
  cases hcurrent : chronicle.current with
  | none => simp [retire, recast, hcurrent]
  | some places =>
      have hsame : (chronicle.recast flags place).current = some (place places) := by
        simp [recast, hcurrent]
      have htape : (chronicle.recast flags place).tape.close =
          chronicle.tape.close.withFlags flags := Transcript.close_withFlags ..
      rw [retire, retire, hsame, hcurrent]
      simp only [htape, Transcript.detached]
      simp [recast, Chapter.recast, Transcript.withFlags]

theorem install_recast (command : Option (List Location)) :
    (chronicle.recast flags place).install (command.map place) =
      (chronicle.install command).recast flags place := by
  cases command <;> rfl

theorem turn_recast :
    (chronicle.recast flags place).turn = chronicle.turn.recast flags place := by
  cases hstaged : chronicle.staged using List.reverseRecOn with
  | nil => simp [turn, recast, hstaged]
  | append_singleton front command =>
      have hsame : (chronicle.recast flags place).staged =
          front.map (Option.map place) ++ [command.map place] := by
        simp [recast, hstaged]
      rw [turn_of_concat hstaged, turn_of_concat hsame, ← install_recast, retire_recast,
        List.reduceOption_map]
      simp [recast]

theorem take_recast (config : Config) (split : Bool) (records : List Bytes) (tags : List Tag) :
    (chronicle.recast flags place).take { config with splitHeader := split } records tags =
      (chronicle.take config records tags).recast flags place := by
  cases hcurrent : chronicle.current with
  | none =>
      have hsame : (chronicle.recast flags place).current = none := by simp [recast, hcurrent]
      rw [take_of_none hcurrent, take_of_none hsame]
      rfl
  | some places =>
      have hsame : (chronicle.recast flags place).current = some (place places) := by
        simp [recast, hcurrent]
      rw [take_of_some hcurrent, take_of_some hsame]
      simp only [recast, Transcript.play_withFlags]
      rfl

theorem amend_recast (config : Config) (split : Bool) (update : HeaderUpdate) :
    (chronicle.recast flags place).amend { config with splitHeader := split } update =
      (chronicle.amend config update).recast flags place := by
  cases hcurrent : chronicle.current with
  | none =>
      have hsame : (chronicle.recast flags place).current = none := by simp [recast, hcurrent]
      have htape := Transcript.apply_withFlags flags
        (chronicle.tape.countTag (some update)) (some update)
      rw [amend_of_none hcurrent, amend_of_none hsame]
      simp only [recast, ← htape]
      rfl
  | some places =>
      have hsame : (chronicle.recast flags place).current = some (place places) := by
        simp [recast, hcurrent]
      rw [amend_of_some hcurrent, amend_of_some hsame]
      simp only [recast, Transcript.step_withFlags]
      rfl

theorem step_recast {config : Config} {split : Bool} {call : Call}
    (hcall : call.Recasts place config.splitHeader split) :
    (chronicle.recast flags place).step { config with splitHeader := split } call =
      (chronicle.step config call).recast flags place := by
  cases call with
  | work items tags =>
      have hclosed : (chronicle.recast flags place).closed = chronicle.closed := rfl
      simp only [step, hclosed]
      split
      · rfl
      · rw [turn_recast, take_recast]
  | update key value =>
      have hsize : { config with splitHeader := split }.recordSize = config.recordSize := rfl
      simp only [step, hsize]
      split
      · rfl
      · rw [amend_recast]
  | setUnbuffered unbuffered => rfl
  | rotate destination =>
      obtain ⟨hfits, hfits', hplaces⟩ := hcall
      simp only [step, hfits, hfits', if_true]
      simp [stage, recast, hplaces]
  | close => simp [step, stage, recast]
  | shutdown =>
      have hclosed : (chronicle.recast flags place).closed = chronicle.closed := rfl
      simp only [step, hclosed]
      split
      · rfl
      · simp only [finish, retire_recast]
        simp [recast, List.reduceOption_map]

theorem run_recast {config : Config} {split : Bool} {calls : List Call}
    (hcalls : ∀ call ∈ calls, call.Recasts place config.splitHeader split) :
    (chronicle.recast flags place).run { config with splitHeader := split } calls =
      (chronicle.run config calls).recast flags place := by
  induction calls generalizing chronicle with
  | nil => rfl
  | cons call rest ih =>
      obtain ⟨hcall, hrest⟩ := List.forall_mem_cons.mp hcalls
      rw [run, List.foldl_cons, step_recast flags place chronicle hcall]
      exact ih _ hrest

theorem reply_recast {config : Config} {split : Bool} {call : Call}
    (hcall : call.Recasts place config.splitHeader split) :
    (chronicle.recast flags place).reply { config with splitHeader := split } call =
      chronicle.reply config call := by
  cases call with
  | rotate destination =>
      obtain ⟨hfits, hfits', -⟩ := hcall
      simp only [reply, hfits, hfits', if_true]
  | _ => rfl

theorem replies_recast {config : Config} {split : Bool} {calls : List Call}
    (hcalls : ∀ call ∈ calls, call.Recasts place config.splitHeader split) :
    (chronicle.recast flags place).replies { config with splitHeader := split } calls =
      chronicle.replies config calls := by
  induction calls generalizing chronicle with
  | nil => rfl
  | cons call rest ih =>
      obtain ⟨hcall, hrest⟩ := List.forall_mem_cons.mp hcalls
      rw [replies, replies, reply_recast flags place chronicle hcall,
        step_recast flags place chronicle hcall, ih _ hrest]

theorem chapters_recast :
    (chronicle.recast flags place).chapters =
      chronicle.chapters.map (Chapter.recast flags place) := by
  cases hcurrent : chronicle.current <;>
    simp [chapters, recast, hcurrent, Chapter.recast, Transcript.segments_withFlags]

end Recast

/-- A chronicle starts alike on a destination that has these places in the other layout. -/
theorem start_recast {flags : UInt8} {place : List Location → List Location} {config : Config}
    {destination : Destination} {split : Bool}
    (h : place (destination.places config.splitHeader) = destination.places split)
    (headers : HeaderState) :
    (start config destination headers).recast flags place =
      start { config with splitHeader := split } destination (headers.withFlags flags) := by
  simp only [start, recast, Option.map_some, h]
  rfl

end Chronicle

end SegmentStream
