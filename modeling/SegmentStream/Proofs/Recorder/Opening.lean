import SegmentStream.Proofs.Recorder.Chronicle

/-!
# Opening targets

What is opened is new: nothing has been written to it yet, and apart from the
places that the destination names all places hold what they held.
-/

namespace SegmentStream

open SegmentStream.Action

/-! ## Paths -/

namespace Store

theorem toOption_enter_put (store : Store) (location : Location) (bytes : Bytes)
    (place : List String) (name : String) :
    ((store.put location bytes).enter place name).toOption = (store.enter place name).toOption := by
  have hdirectory : (store.put location bytes).isDirectory (place ++ [name]) =
      store.isDirectory (place ++ [name]) := rfl
  simp only [enter, hdirectory]
  split
  · rfl
  · split
    · rfl
    · split
      · rfl
      · split
        · rfl
        · split <;> split <;> rfl

theorem toOption_bind {ε α β : Type} (first : Except ε α) (next : α → Except ε β) :
    (first >>= next).toOption = first.toOption.bind fun value => (next value).toOption := by
  cases first <;> rfl

theorem toOption_walk_put (store : Store) (location : Location) (bytes : Bytes)
    (names : List String) (place : List String) :
    (names.foldlM (store.put location bytes).enter place).toOption =
      (names.foldlM store.enter place).toOption := by
  induction names generalizing place with
  | nil => rfl
  | cons name rest ih =>
      rw [List.foldlM_cons, List.foldlM_cons, toOption_bind, toOption_bind, toOption_enter_put]
      exact Option.bind_congr fun next _ => ih next

/-- Where a path leads does not depend on what is in files. -/
theorem toOption_locate_put (store : Store) (location : Location) (bytes : Bytes)
    (path : String) :
    ((store.put location bytes).locate path).toOption = (store.locate path).toOption := by
  have hwalk := toOption_walk_put store location bytes (namesOf path).dropLast []
  unfold locate
  cases hput : (namesOf path).dropLast.foldlM (store.put location bytes).enter [] with
  | error cause =>
      cases hwhole : (namesOf path).dropLast.foldlM store.enter [] with
      | error cause' =>
          simp only [bind, Except.bind]
          repeat' split
          all_goals rfl
      | ok place =>
          rw [hput, hwhole] at hwalk
          cases hwalk
  | ok place =>
      cases hwhole : (namesOf path).dropLast.foldlM store.enter [] with
      | error cause' =>
          rw [hput, hwhole] at hwalk
          cases hwalk
      | ok place' =>
          rw [hput, hwhole] at hwalk
          obtain rfl : place = place' := Option.some.inj hwalk
          rfl

theorem partsOf_of_not_mem {text : List Char} (h : '/' ∉ text) : partsOf text = [text] := by
  induction text with
  | nil => rfl
  | cons char rest ih =>
      rw [List.mem_cons, not_or] at h
      rw [partsOf, if_neg (Ne.symm h.1), ih h.2, List.modifyHead_cons]

/-- What is put behind a path and has no separator goes to the last part. -/
theorem exists_partsOf_append (text : List Char) :
    ∃ front last, partsOf text = front ++ [last] ∧
      ∀ ending, '/' ∉ ending → partsOf (text ++ ending) = front ++ [last ++ ending] := by
  induction text with
  | nil => exact ⟨[], [], rfl, fun ending hending => partsOf_of_not_mem hending⟩
  | cons char rest ih =>
      obtain ⟨front, last, hrest, hending⟩ := ih
      simp only [List.cons_append, partsOf]
      split
      · rw [hrest]
        exact ⟨[] :: front, last, rfl, fun ending hnot => by rw [hending ending hnot]; rfl⟩
      · rw [hrest]
        cases front with
        | nil => exact ⟨[], char :: last, rfl, fun ending hnot => by rw [hending ending hnot]; rfl⟩
        | cons first front =>
            refine ⟨(char :: first) :: front, last, rfl, ?_⟩
            intro ending hnot
            rw [hending ending hnot]
            rfl

/-- The last name of a path is longer in that of its headers, or a path has one name less. -/
theorem exists_namesOf_headerPath (path : String) :
    ∃ front last, namesOf (headerPath path) = front ++ [last ++ headerSuffix] ∧
      namesOf path = if last = "" then front else front ++ [last] := by
  obtain ⟨front, last, hpath, hending⟩ := exists_partsOf_append path.toList
  refine ⟨(front.filter fun part => !part.isEmpty).map String.ofList, String.ofList last, ?_, ?_⟩
  · have hsuffix : '/' ∉ headerSuffix.toList := by decide
    have hne : (last ++ headerSuffix.toList).isEmpty = false := by simp [headerSuffix]
    rw [namesOf, headerPath, String.toList_append, hending _ hsuffix, List.filter_append,
      List.map_append]
    simp [hne]
  · rw [namesOf, hpath, List.filter_append, List.map_append]
    cases last with
    | nil => simp
    | cons char rest => simp [← String.toList_eq_nil_iff]

/--
The names of a path that leads to a file: the directories on the way to it, and a
last one that is not to be entered.
-/
theorem of_locate {store : Store} {path : String} {location : Location}
    (h : store.locate path = .ok location) :
    ∃ front place name, namesOf path = front ++ [name] ∧
      front.foldlM store.enter [] = .ok place ∧ location = .file (place ++ [name]) ∧
      ∀ inner, store.enter place name ≠ .ok inner := by
  simp only [locate, bind, Except.bind, throw, throwThe, MonadExceptOf.throw, pure,
    Except.pure] at h
  iterate 3 (split at h; · cases h)
  cases hplace : (namesOf path).dropLast.foldlM store.enter [] with
  | error cause =>
      rw [hplace] at h
      cases h
  | ok place =>
      simp only [hplace] at h
      split at h
      iterate 3 cases h
      rename_i name hdot hdots hname
      iterate 3 (split at h; · cases h)
      rename_i hlong hdirectory
      refine ⟨_, place, name, (List.dropLast_append_getLast? name hname).symm, hplace, ?_, ?_⟩
      · exact (Except.ok.inj h).symm
      · intro inner henter
        rw [enter, if_neg hdot, if_neg hdots, if_neg hlong, if_neg hdirectory] at henter
        split at henter <;> cases henter

/-- Data and headers are never in one file. -/
theorem locate_headerPath_ne {store : Store} {path : String} {data header : Location}
    (hdata : store.locate path = .ok data)
    (hheader : store.locate (headerPath path) = .ok header) : data ≠ header := by
  obtain ⟨front, last, hlonger, hnames⟩ := exists_namesOf_headerPath path
  obtain ⟨front', place', name', hnames', hplace', rfl, -⟩ := of_locate hheader
  obtain ⟨rfl, hname⟩ := List.append_inj' (hnames'.symm.trans hlonger) rfl
  obtain rfl := (List.cons.inj hname).1
  obtain ⟨inner, place, name, hfile, hplace, rfl, henter⟩ := of_locate hdata
  rw [hfile] at hnames
  intro hsame
  obtain ⟨rfl, hname⟩ := List.append_inj' (Location.file.inj hsame) rfl
  split at hnames
  · -- the file for data would be a directory on the way to that for headers
    subst hnames
    rw [List.foldlM_append, hplace] at hplace'
    exact henter _ ((bind_pure _).symm.trans hplace')
  · obtain ⟨-, hlast⟩ := List.append_inj' hnames rfl
    obtain rfl := (List.cons.inj hlast).1
    have hlength := congrArg String.length (List.cons.inj hname).1
    simp [headerSuffix] at hlength

end Store

/-! ## Places that are sought -/

/-- The places that opening a destination may clear: data first, then headers. -/
def Destination.sought (split : Bool) (store : Store) : Destination → List Location
  | file path => (store.locate path).toOption.toList ++
      if split then (store.locate (headerPath path)).toOption.toList else []
  | other => if other.fits split then other.places split else []

theorem Store.mem_toList_toOption {outcome : Except IoFault Location} {place : Location} :
    place ∈ outcome.toOption.toList ↔ outcome = .ok place := by
  cases outcome <;> simp [Except.toOption, eq_comm]

theorem Destination.sought_file_nodup (path : String) (split : Bool) (store : Store) :
    ((Destination.file path).sought split store).Nodup := by
  rw [sought]
  apply List.Nodup.append (Option.toList_nodup _)
  · cases split
    · exact List.nodup_nil
    · exact Option.toList_nodup _
  · intro place hdata hheader
    cases split with
    | false => cases hheader
    | true =>
        rw [if_pos rfl, Store.mem_toList_toOption] at hheader
        exact Store.locate_headerPath_ne (Store.mem_toList_toOption.mp hdata) hheader rfl

/-! ## Fresh targets -/

/-- The channel stands at the start of an empty place. -/
structure Channel.IsFresh (channel : Channel) (store : Store) : Prop where
  position : channel.position = 0
  pending : channel.pending = []
  empty : store.read channel.location = []

namespace Target

def IsFresh (target : Target) (store : Store) : Prop :=
  ∀ channel ∈ target.channels, channel.IsFresh store

/-- Headers stand apart just where they are to, and nothing has been written yet. -/
structure IsUnused (target : Target) (split : Bool) : Prop where
  isSplit : target.isSplit = split
  dataEnd : target.dataEnd = 0
  headerEnd : target.headerEnd = 0

/-- The target of a destination in memory. -/
def inMemory (split : Bool) (data header : String) : Target :=
  { label := "<memory>"
    data := { location := .buffer data }
    header := if split then some { location := .buffer header } else none }

theorem inMemory_isUnused (split : Bool) (data header : String) :
    (inMemory split data header).IsUnused split := by
  cases split <;> exact ⟨rfl, rfl, rfl⟩

theorem inMemory_places (split : Bool) (data header : String) :
    (inMemory split data header).places = (Destination.memory data header).places split := by
  cases split <;> rfl

section Open

variable {destination : Destination} {split : Bool} {host : Host}

theorem openFile_ends (path : String) (host : Host) :
    Ends (Destination.openFile path) host
      (fun channel next => host.store.locate path = .ok channel.location ∧
        channel = { location := channel.location } ∧
        next = { host with store := host.store.put channel.location [] })
      fun _ next => next = host := by
  unfold Ends Destination.openFile Store.create
  cases host.store.locate path with
  | error cause => rfl
  | ok place => exact ⟨rfl, rfl, rfl⟩

/-- What becomes of a target that is opened where it is sought. -/
structure OpensAt (destination : Destination) (split : Bool) (host : Host) (target : Target)
    (next : Host) : Prop where
  unused : target.IsUnused split
  places : target.places = destination.sought split host.store
  elsewhere : ∀ place, place ∉ target.places → next.store.read place = host.store.read place

theorem openPlainFile_ends (path : String) (host : Host) :
    Ends (openAt (.file path) false) host
      (fun target next => OpensAt (.file path) false host target next)
      fun _ next => next = host := by
  simp only [openAt, Destination.openChannels, Bool.false_eq_true, if_false, ends_bind, ends_pure,
    ends_modify]
  apply (openFile_ends path host).mono
  · intro data next hdata
    obtain ⟨hlocated, -, rfl⟩ := hdata
    constructor
    · exact ⟨rfl, rfl, rfl⟩
    · rw [Destination.sought, hlocated]
      rfl
    · intro place hplace
      apply Store.read_put_of_ne
      rintro rfl
      exact hplace List.mem_cons_self
  · exact fun _ _ => id

/-- The file for headers is cleared first, also where the one for data cannot be opened. -/
theorem openSplitFile_ends (path : String) (host : Host) :
    Ends (openAt (.file path) true) host
      (fun target next => OpensAt (.file path) true host target next)
      fun _ next => ∀ place, place ∉ (Destination.file path).sought true host.store →
        next.store.read place = host.store.read place := by
  simp only [openAt, Destination.openChannels, if_true, ends_bind, ends_map, ends_pure,
    ends_modify]
  apply (openFile_ends (headerPath path) host).mono
  · intro header cleared hheader
    obtain ⟨hheader, -, rfl⟩ := hheader
    apply (openFile_ends path _).mono
    · intro data next hdata
      obtain ⟨hdata, -, rfl⟩ := hdata
      have hlocated := Store.toOption_locate_put host.store header.location [] path
      rw [hdata] at hlocated
      constructor
      · exact ⟨rfl, rfl, rfl⟩
      · rw [Destination.sought, ← hlocated, hheader]
        rfl
      · intro place hplace
        have hne : place ≠ data.location ∧ place ≠ header.location := by
          simpa [places, channels] using hplace
        exact (Store.read_put_of_ne _ _ hne.1).trans (Store.read_put_of_ne _ _ hne.2)
    · intro error next herror place hplace
      obtain rfl := herror
      apply Store.read_put_of_ne
      rintro rfl
      apply hplace
      rw [Destination.sought, hheader]
      exact List.mem_append_right _ (List.mem_singleton_self _)
  · intro error next herror place _
    rw [herror]

theorem openAt_opens (destination : Destination) (split : Bool) (host : Host) :
    Ends (openAt destination split) host
      (fun target next => OpensAt destination split host target next)
      fun _ next => ∀ place, place ∉ destination.sought split host.store →
        next.store.read place = host.store.read place := by
  cases destination with
  | file path =>
      cases split with
      | false =>
          apply (openPlainFile_ends path host).mono
          · exact fun _ _ => id
          · intro _ _ herror place _
            rw [herror]
      | true => exact openSplitFile_ends path host
  | memory data header =>
      cases split with
      | false =>
          refine ⟨⟨rfl, rfl, rfl⟩, rfl, fun place hplace => Store.read_put_of_ne _ _ ?_⟩
          rintro rfl
          exact hplace List.mem_cons_self
      | true =>
          refine ⟨⟨rfl, rfl, rfl⟩, rfl, fun place hplace => ?_⟩
          obtain ⟨hdata, hheader⟩ : place ≠ .buffer data ∧ place ≠ .buffer header := by
            simpa [places, channels] using hplace
          exact (Store.read_put_of_ne _ _ hheader).trans (Store.read_put_of_ne _ _ hdata)
  | channels data header =>
      cases hfits : (Destination.channels data header).fits split with
      | false =>
          apply (openAt_refused hfits).mono
          · exact fun _ _ => False.elim
          · rintro _ _ rfl _ _
            rfl
      | true =>
          cases split <;> cases header
          · exact ⟨⟨rfl, rfl, rfl⟩, rfl, fun _ _ => rfl⟩
          · cases hfits
          · cases hfits
          · exact ⟨⟨rfl, rfl, rfl⟩, rfl, fun _ _ => rfl⟩

/-- What was cleared stays empty when something else is cleared. -/
theorem read_put_nil {store : Store} {place other : Location} (h : store.read place = []) :
    (store.put other []).read place = [] := by
  by_cases heq : place = other
  · rw [heq]
    exact Store.read_put_self ..
  · rw [Store.read_put_of_ne _ _ heq]
    exact h

theorem openAt_inMemory (data header : String) (split : Bool) (host : Host) :
    Ends (openAt (.memory data header) split) host
      (fun target next => target = inMemory split data header ∧ target.IsFresh next.store ∧
        ∀ place, place ∉ target.places → next.store.read place = host.store.read place)
      fun _ _ => False := by
  have hopened := (openAt_opens (.memory data header) split host).mono
    (fun _ _ h => h.elsewhere) fun _ _ h => h
  cases split with
  | false =>
      refine ⟨rfl, ?_, hopened⟩
      exact List.forall_mem_singleton.mpr ⟨rfl, rfl, Store.read_put_self ..⟩
  | true =>
      refine ⟨rfl, ?_, hopened⟩
      refine List.forall_mem_cons.mpr ⟨⟨rfl, rfl, ?_⟩, ?_⟩
      · exact read_put_nil (Store.read_put_self ..)
      · exact List.forall_mem_singleton.mpr ⟨rfl, rfl, Store.read_put_self ..⟩

end Open

end Target

end SegmentStream
