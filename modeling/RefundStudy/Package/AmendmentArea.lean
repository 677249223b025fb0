/-
  The evidence file system and the amendments read back from it
  (`evidence-package/package-file-system.ts`, `node/node-package-file-system.ts`,
  `package-snapshot.ts`).
-/
import RefundStudy.Foundation.System
import RefundStudy.Package.Verifier
import Mathlib.Data.List.TakeWhile

set_option autoImplicit false

namespace RefundStudy.Package

open Foundation Record

variable {path : String} {name : String} {bytes : Bytes}

/-! ## Paths below a directory -/

/-- What follows `root/` in a path. -/
def below (root path : String) : Option String :=
  if root.toList ++ ['/'] <+: path.toList then
    some (String.ofList (path.toList.drop (root.toList.length + 1)))
  else none

theorem below_eq_some {root path rest : String} :
    below root path = some rest ↔ path = root ++ "/" ++ rest := by
  unfold below
  constructor
  · intro h
    split at h
    · rename_i hprefix
      obtain ⟨more, hmore⟩ := hprefix
      obtain rfl := Option.some.inj h
      apply String.toList_inj.mp
      simp [← hmore, String.toList_append]
    · cases h
  · rintro rfl
    have hprefix : root.toList ++ ['/'] <+: (root ++ "/" ++ rest).toList :=
      ⟨rest.toList, by simp [String.toList_append]⟩
    rw [if_pos hprefix]
    simp [String.toList_append]

theorem below_join (root rest : String) : below root (root ++ "/" ++ rest) = some rest :=
  below_eq_some.mpr rfl

/-- The directories that end at a slash still to come, after the characters done. -/
def ancestorsAfter (done : List Char) : List Char → List String
  | [] => []
  | c :: rest =>
    if c = '/' then String.ofList done :: ancestorsAfter (done ++ [c]) rest
    else ancestorsAfter (done ++ [c]) rest

/-- The directories above a path, outermost first. -/
def ancestors (path : String) : List String := ancestorsAfter [] path.toList

theorem mem_ancestorsAfter {done chars : List Char} {directory : String} :
    directory ∈ ancestorsAfter done chars ↔
      ∃ front rest, chars = front ++ '/' :: rest ∧ directory = String.ofList (done ++ front) := by
  induction chars generalizing done with
  | nil => simp [ancestorsAfter]
  | cons c chars ih =>
    have hlater : directory ∈ ancestorsAfter (done ++ [c]) chars ↔
        ∃ front rest, c :: chars = front ++ '/' :: rest ∧ front ≠ [] ∧
          directory = String.ofList (done ++ front) := by
      rw [ih]
      constructor
      · rintro ⟨front, rest, rfl, rfl⟩
        exact ⟨c :: front, rest, rfl, by simp, by simp⟩
      · rintro ⟨front, rest, hsplit, hne, rfl⟩
        cases front with
        | nil => exact absurd rfl hne
        | cons first front =>
          obtain ⟨rfl, rfl⟩ := List.cons.inj hsplit
          exact ⟨front, rest, rfl, by simp⟩
    simp only [ancestorsAfter]
    split
    · rename_i hslash
      subst hslash
      rw [List.mem_cons, hlater]
      constructor
      · rintro (rfl | ⟨front, rest, hsplit, -, rfl⟩)
        · exact ⟨[], chars, rfl, by simp⟩
        · exact ⟨front, rest, hsplit, rfl⟩
      · rintro ⟨front, rest, hsplit, rfl⟩
        cases front with
        | nil => exact .inl (by simp)
        | cons first front => exact .inr ⟨first :: front, rest, hsplit, by simp, rfl⟩
    · rename_i hslash
      rw [hlater]
      constructor
      · rintro ⟨front, rest, hsplit, -, rfl⟩
        exact ⟨front, rest, hsplit, rfl⟩
      · rintro ⟨front, rest, hsplit, rfl⟩
        cases front with
        | nil => exact absurd (List.cons.inj hsplit).1 hslash
        | cons first front => exact ⟨first :: front, rest, hsplit, by simp, rfl⟩

theorem mem_ancestors {path directory : String} :
    directory ∈ ancestors path ↔ ∃ rest, path = directory ++ "/" ++ rest := by
  unfold ancestors
  rw [mem_ancestorsAfter]
  constructor
  · rintro ⟨front, rest, hsplit, rfl⟩
    refine ⟨String.ofList rest, String.toList_inj.mp ?_⟩
    simp [hsplit, String.toList_append]
  · rintro ⟨rest, rfl⟩
    exact ⟨directory.toList, rest.toList, by simp [String.toList_append], by simp⟩

/-! ## The store -/

/-- The code of a `FileSystemFailure`. -/
inductive FsFailure where
  | notFound
  | alreadyExists
  | invalidPath
  | ioError

/-- The evidence directory: its regular files, each at one path, and its directories. -/
structure EvidenceStore where
  files : List PackageFile
  directories : List String
  distinct : DistinctPaths files

/-- The calls of `PackageFileSystem`, of the id source and of the clock. -/
inductive FsCall where
  | list (root : String)
  | read (path : String)
  | writeOnce (path : String) (bytes : Bytes)
  | nextId
  | now

def FsReply : FsCall → Type
  | .list _ => Except FsFailure (List FsEntry)
  | .read _ => Except FsFailure Bytes
  | .writeOnce _ _ => Except FsFailure Unit
  | .nextId => Uuid4
  | .now => UtcMillis

namespace EvidenceStore

variable (store : EvidenceStore)

def entriesBelow (root : String) : List FsEntry :=
  let files := store.files.filterMap fun file =>
    (below root file.path).map fun path => FsEntry.mk path .file
  let directories := store.directories.filterMap fun directory =>
    (below root directory).map fun path => FsEntry.mk path .directory
  (files ++ directories).insertionSort fun first second => codeUnitsLe first.path second.path

def list (root : String) : Except FsFailure (List FsEntry) :=
  if (invalidPathReason root).isSome then .error .invalidPath
  else if root ∈ store.directories then .ok (store.entriesBelow root)
  else if (fileAt store.files root).isSome then .error .ioError
  else .error .notFound

def read (path : String) : Except FsFailure Bytes :=
  if (invalidPathReason path).isSome then .error .invalidPath
  else
    match fileAt store.files path with
    | some file => .ok file.bytes
    | none => if path ∈ store.directories then .error .ioError else .error .notFound

/-- `mkdir` for the given directories. -/
def makeDirectories (directories : List String) : EvidenceStore :=
  { store with
    directories := store.directories ++ directories.filter fun d => !store.directories.contains d }

/-- The file created at a path that nothing has yet. -/
def create (path : String) (bytes : Bytes)
    (hfree : fileAt store.files path = none) : EvidenceStore where
  files := store.files ++ [⟨path, bytes⟩]
  directories := store.directories
  distinct := by
    unfold DistinctPaths
    rw [List.map_append]
    refine store.distinct.append (List.nodup_singleton _) ?_
    intro other hother hpath
    obtain ⟨file, hfile, rfl⟩ := List.mem_map.mp hother
    have hne := List.find?_eq_none.mp hfree file hfile
    exact hne (by simpa using List.mem_singleton.mp hpath)

/-- Parent directories first, then the file, unless something is in the way. -/
def writeOnce (path : String) (bytes : Bytes) : Except FsFailure Unit × EvidenceStore :=
  if (invalidPathReason path).isSome then (.error .invalidPath, store)
  else if (ancestors path).any fun directory => (fileAt store.files directory).isSome then
    (.error .ioError, store)
  else
    let made := store.makeDirectories (ancestors path)
    if hfree : fileAt made.files path = none then
      if path ∈ made.directories then (.error .alreadyExists, made)
      else (.ok (), made.create path bytes hfree)
    else (.error .alreadyExists, made)

end EvidenceStore

/-- What the environment decides at one call: that it works, that it fails after making parent
directories down to one of them, or the next id or time. -/
inductive FsChoice where
  | works
  | fails (made : Option String)
  | id (id : Uuid4)
  | time (time : UtcMillis)

/-- The file system, the id source and the clock.  A failure that is not about the path is an
input or output error. -/
def fileMachine : Machine Unit FsCall FsReply EvidenceStore FsChoice where
  exec _ request choice store :=
    match request, choice with
    | .list root, .works => some (store.list root, store)
    | .list _, .fails _ => some (.error .ioError, store)
    | .read path, .works => some (store.read path, store)
    | .read _, .fails _ => some (.error .ioError, store)
    | .writeOnce path bytes, .works => some (store.writeOnce path bytes)
    | .writeOnce _ _, .fails none => some (.error .ioError, store)
    | .writeOnce path _, .fails (some directory) =>
      if directory ∈ ancestors path then
        some (.error .ioError, store.makeDirectories (ancestors directory ++ [directory]))
      else none
    | .nextId, .id id => some (id, store)
    | .now, .time time => some (time, store)
    | _, _ => none

abbrev FsProgram (α : Type) : Type := Program FsCall FsReply α

/-- Programs over the file system that stop at the first failure. -/
abbrev FsResult (α : Type) : Type := ExceptT FsFailure (Program FsCall FsReply) α

/-! ## Reading amendments -/

def topLevel (path : String) : String := String.ofList (path.toList.takeWhile (· != '/'))

/-- What follows the first slash of a path. -/
def afterTopLevel (path : String) : Option String :=
  match path.toList.dropWhile (· != '/') with
  | [] => none
  | _ :: rest => some (String.ofList rest)

/-- One entry of the loop of `groupByTopLevel`. -/
def groupEntry (groups : InsertionMap String (List FsEntry)) (entry : FsEntry) :
    InsertionMap String (List FsEntry) :=
  let members := (groups.get? (topLevel entry.path)).getD []
  groups.set (topLevel entry.path)
    (match afterTopLevel entry.path with
      | none => members
      | some rest => members ++ [{ entry with path := rest }])

def groupByTopLevel (entries : List FsEntry) : InsertionMap String (List FsEntry) :=
  entries.foldl groupEntry []

/-- `fs.read`. -/
def readFile (path : String) : FsResult Bytes :=
  ExceptT.mk (Program.perform (FsCall.read path) : FsProgram (Except FsFailure Bytes))

/-- The loop of `readEntries` over the entries that are files. -/
def readFiles (directory : String) : List FsEntry → FsResult (List PackageFile)
  | [] => pure []
  | entry :: rest => do
    let bytes ← readFile (directory ++ "/" ++ entry.path)
    let files ← readFiles directory rest
    pure (⟨entry.path, bytes⟩ :: files)

def readEntries (directory : String) (entries : List FsEntry) : FsResult PackageSnapshot := do
  let files ← readFiles directory (entries.filter fun entry => entry.type == .file)
  pure ⟨files, entries.filter fun entry => entry.type != .file && entry.type != .directory⟩

/-- The loop of `readAmendmentSnapshots`. -/
def readGroups (directory : String) :
    List (String × List FsEntry) → FsResult (List AmendmentSnapshot)
  | [] => pure []
  | (name, members) :: rest => do
    let read ← readEntries (directory ++ "/" ++ name) members
    let snapshots ← readGroups directory rest
    pure (⟨name, read.files, read.specialEntries⟩ :: snapshots)

/-- What `readAmendmentSnapshots` does with the listing: an absent directory holds nothing. -/
def readListed (directory : String) :
    Except FsFailure (List FsEntry) → FsProgram (Except FsFailure (List AmendmentSnapshot))
  | .error .notFound => .ret (.ok [])
  | .error failure => .ret (.error failure)
  | .ok entries => (readGroups directory (groupByTopLevel entries)).run

def readAmendmentSnapshots (identity : ExecutionIdentity) :
    FsProgram (Except FsFailure (List AmendmentSnapshot)) :=
  .call (.list (amendmentsDirectory identity)) (readListed (amendmentsDirectory identity))

/-! ## What a call can do -/

section Answers

variable {root path : String} {bytes : Bytes} {store store' : EvidenceStore}

/-- Nothing else runs while an amendment is read or written. -/
abbrev alone : Interference EvidenceStore := Interference.none EvidenceStore

theorem answers_list {reply : Except FsFailure (List FsEntry)}
    (h : fileMachine.answers () (.list root) store reply store') :
    store' = store ∧ (reply = store.list root ∨ reply = .error .ioError) := by
  obtain ⟨choice, hexec⟩ := h
  cases choice with
  | works =>
    obtain ⟨rfl, rfl⟩ := Prod.mk.inj (Option.some.inj hexec)
    exact ⟨rfl, .inl rfl⟩
  | fails made =>
    obtain ⟨rfl, rfl⟩ := Prod.mk.inj (Option.some.inj hexec)
    exact ⟨rfl, .inr rfl⟩
  | id id => cases hexec
  | time time => cases hexec

theorem answers_read {reply : Except FsFailure Bytes}
    (h : fileMachine.answers () (.read path) store reply store') :
    store' = store ∧ (reply = store.read path ∨ reply = .error .ioError) := by
  obtain ⟨choice, hexec⟩ := h
  cases choice with
  | works =>
    obtain ⟨rfl, rfl⟩ := Prod.mk.inj (Option.some.inj hexec)
    exact ⟨rfl, .inl rfl⟩
  | fails made =>
    obtain ⟨rfl, rfl⟩ := Prod.mk.inj (Option.some.inj hexec)
    exact ⟨rfl, .inr rfl⟩
  | id id => cases hexec
  | time time => cases hexec

theorem answers_writeOnce {reply : Except FsFailure Unit}
    (h : fileMachine.answers () (.writeOnce path bytes) store reply store') :
    (reply, store') = store.writeOnce path bytes ∨
      reply = .error .ioError ∧ (store' = store ∨ ∃ directory ∈ ancestors path,
        store' = store.makeDirectories (ancestors directory ++ [directory])) := by
  obtain ⟨choice, hexec⟩ := h
  cases choice with
  | works => exact .inl (Option.some.inj hexec).symm
  | fails made =>
    cases made with
    | none =>
      obtain ⟨rfl, rfl⟩ := Prod.mk.inj (Option.some.inj hexec)
      exact .inr ⟨rfl, .inl rfl⟩
    | some directory =>
      simp only [fileMachine] at hexec
      split at hexec
      · rename_i hancestor
        obtain ⟨rfl, rfl⟩ := Prod.mk.inj (Option.some.inj hexec)
        exact .inr ⟨rfl, .inr ⟨directory, hancestor, rfl⟩⟩
      · cases hexec
  | id id => cases hexec
  | time time => cases hexec

theorem answers_nextId {reply : Uuid4}
    (h : fileMachine.answers () .nextId store reply store') : store' = store := by
  obtain ⟨choice, hexec⟩ := h
  cases choice with
  | works => cases hexec
  | fails made => cases hexec
  | id id => exact (Prod.mk.inj (Option.some.inj hexec)).2.symm
  | time time => cases hexec

theorem answers_now {reply : UtcMillis}
    (h : fileMachine.answers () .now store reply store') : store' = store := by
  obtain ⟨choice, hexec⟩ := h
  cases choice with
  | works => cases hexec
  | fails made => cases hexec
  | id id => cases hexec
  | time time => exact (Prod.mk.inj (Option.some.inj hexec)).2.symm

end Answers

/-! ## What reading gives -/

section Reading

variable {store : EvidenceStore} {directory : String}

abbrev ReadsOnly {α : Type} (Q : α → Prop) (p : FsProgram α) (store : EvidenceStore) : Prop :=
  Safe (fileMachine.answers ()) alone (fun before after => after = before)
    (fun value after => after = store ∧ Q value) p store

/-- The files that stand at these entries of a directory. -/
def ReadFrom (store : EvidenceStore) (directory : String) (entries : List FsEntry)
    (files : List PackageFile) : Prop :=
  List.Forall₂ (fun entry file => file.path = entry.path ∧
    store.read (directory ++ "/" ++ entry.path) = .ok file.bytes) entries files

def IfOk {ε α : Type} (Q : α → Prop) (result : Except ε α) : Prop :=
  ∀ value, result = .ok value → Q value

theorem ReadsOnly.ret {α : Type} {Q : α → Prop} {value : α} (h : Q value) :
    ReadsOnly Q (.ret value) store := by
  intro after hrel
  obtain rfl := hrel
  exact ⟨rfl, h⟩

theorem ReadsOnly.bind {ε α β : Type} {Q : α → Prop} {Q₂ : β → Prop}
    {p : ExceptT ε (Program FsCall FsReply) α} {rest : α → ExceptT ε (Program FsCall FsReply) β}
    (hfirst : ReadsOnly (IfOk Q) p.run store)
    (hrest : ∀ value, Q value → ReadsOnly (IfOk Q₂) (rest value).run store) :
    ReadsOnly (IfOk Q₂) (p >>= rest).run store := by
  refine Safe.bind hfirst ?_
  rintro result after ⟨rfl, hresult⟩
  cases result with
  | ok value => exact hrest value (hresult value rfl)
  | error failure =>
    apply ReadsOnly.ret
    intro value hvalue
    cases hvalue

theorem readFile_readsOnly (path : String) :
    ReadsOnly (IfOk fun bytes => store.read path = .ok bytes) (readFile path).run store := by
  intro before hrel reply after hanswer
  obtain rfl := hrel
  obtain ⟨rfl, hreply⟩ := answers_read hanswer
  refine ⟨rfl, ReadsOnly.ret ?_⟩
  intro bytes hbytes
  rcases hreply with hreply | hreply
  · exact hreply.symm.trans hbytes
  · rw [hreply] at hbytes
    cases hbytes

theorem readFiles_readsOnly (directory : String) (entries : List FsEntry) :
    ReadsOnly (IfOk (ReadFrom store directory entries)) (readFiles directory entries).run store := by
  induction entries with
  | nil =>
    apply ReadsOnly.ret
    intro files hfiles
    obtain rfl := Except.ok.inj hfiles
    exact .nil
  | cons entry rest ih =>
    refine ReadsOnly.bind (readFile_readsOnly _) (fun bytes hbytes => ?_)
    refine ReadsOnly.bind ih (fun files hfiles => ?_)
    apply ReadsOnly.ret
    intro value hvalue
    obtain rfl := Except.ok.inj hvalue
    exact .cons ⟨rfl, hbytes⟩ hfiles

structure SnapshotFrom (store : EvidenceStore) (directory : String)
    (group : String × List FsEntry) (snapshot : AmendmentSnapshot) : Prop where
  name : snapshot.directory = group.1
  files : ReadFrom store (directory ++ "/" ++ group.1)
    (group.2.filter fun entry => entry.type == .file) snapshot.files
  special : snapshot.specialEntries =
    group.2.filter fun entry => entry.type != .file && entry.type != .directory

theorem readGroups_readsOnly (directory : String) (groups : List (String × List FsEntry)) :
    ReadsOnly (IfOk (List.Forall₂ (SnapshotFrom store directory) groups))
      (readGroups directory groups).run store := by
  induction groups with
  | nil =>
    apply ReadsOnly.ret
    intro snapshots hsnapshots
    obtain rfl := Except.ok.inj hsnapshots
    exact .nil
  | cons group rest ih =>
    refine ReadsOnly.bind (Q := fun read => SnapshotFrom store directory group
      ⟨group.1, read.files, read.specialEntries⟩) ?_ (fun read hread => ?_)
    · refine ReadsOnly.bind (readFiles_readsOnly _ _) (fun files hfiles => ?_)
      apply ReadsOnly.ret
      intro value hvalue
      obtain rfl := Except.ok.inj hvalue
      exact ⟨rfl, hfiles, rfl⟩
    · refine ReadsOnly.bind ih (fun snapshots hsnapshots => ?_)
      apply ReadsOnly.ret
      intro value hvalue
      obtain rfl := Except.ok.inj hvalue
      exact .cons hread hsnapshots

/-- The snapshots of an area: none when the directory is absent, else one for each group. -/
def SnapshotsFrom (store : EvidenceStore) (directory : String)
    (snapshots : List AmendmentSnapshot) : Prop :=
  (store.list directory = .error .notFound ∧ snapshots = []) ∨
  ∃ entries, store.list directory = .ok entries ∧
    List.Forall₂ (SnapshotFrom store directory) (groupByTopLevel entries) snapshots

theorem readAmendmentSnapshots_readsOnly (identity : ExecutionIdentity) :
    ReadsOnly (IfOk (SnapshotsFrom store (amendmentsDirectory identity)))
      (readAmendmentSnapshots identity) store := by
  intro before hrel reply after hanswer
  obtain rfl := hrel
  obtain ⟨rfl, hreply⟩ := answers_list hanswer
  refine ⟨rfl, ?_⟩
  cases reply with
  | error failure =>
    cases failure with
    | notFound =>
      refine ReadsOnly.ret (fun snapshots hsnapshots => ?_)
      obtain rfl := Except.ok.inj hsnapshots
      rcases hreply with hreply | hreply
      · exact .inl ⟨hreply.symm, rfl⟩
      · cases hreply
    | alreadyExists => exact ReadsOnly.ret fun _ h => by cases h
    | invalidPath => exact ReadsOnly.ret fun _ h => by cases h
    | ioError => exact ReadsOnly.ret fun _ h => by cases h
  | ok entries =>
    rcases hreply with hreply | hreply
    · refine Safe.weaken (readGroups_readsOnly _ _) ?_
      rintro result after ⟨rfl, hresult⟩
      refine ⟨rfl, fun snapshots hsnapshots => .inr ⟨entries, hreply.symm, ?_⟩⟩
      exact hresult snapshots hsnapshots
    · cases hreply

end Reading

/-! ## Groups -/

section Groups

variable {entries : List FsEntry} {entry : FsEntry} {name rest : String}

theorem topLevel_join (hplain : '/' ∉ name.toList) (rest : String) :
    topLevel (name ++ "/" ++ rest) = name ∧ afterTopLevel (name ++ "/" ++ rest) = some rest := by
  have hall : ∀ c ∈ name.toList, (c != '/') = true := by
    intro c hc
    simp only [bne_iff_ne]
    rintro rfl
    exact hplain hc
  have hchars : (name ++ "/" ++ rest).toList = name.toList ++ '/' :: rest.toList := by
    simp [String.toList_append]
  unfold topLevel afterTopLevel
  rw [hchars, List.takeWhile_append_of_pos hall, List.dropWhile_append_of_pos hall]
  simp

/-- What stands behind a slash does not change the first segment. -/
theorem topLevel_front (front rest : String) : topLevel (front ++ "/" ++ rest) = topLevel front := by
  unfold topLevel
  have hchars : (front ++ "/" ++ rest).toList = front.toList ++ '/' :: rest.toList := by
    simp [String.toList_append]
  rw [hchars, List.takeWhile_append]
  split
  · rename_i hlength
    rw [(List.takeWhile_prefix _).eq_of_length hlength]
    simp
  · rfl

theorem eq_join_of_afterTopLevel (h : afterTopLevel path = some rest) :
    path = topLevel path ++ "/" ++ rest := by
  unfold afterTopLevel at h
  split at h
  · cases h
  · rename_i slash more hdrop
    obtain rfl := Option.some.inj h
    have hslash : slash = '/' := by
      have hne : path.toList.dropWhile (· != '/') ≠ [] := by simp [hdrop]
      have hhead := List.head_dropWhile_not (fun c => c != '/') hne
      simpa [hdrop] using hhead
    have hwhole : path.toList.takeWhile (· != '/') ++ slash :: more = path.toList := by
      rw [← hdrop]
      exact List.takeWhile_append_dropWhile
    apply String.toList_inj.mp
    rw [hslash] at hwhole
    simpa [topLevel, String.toList_append] using hwhole.symm

theorem join_inj {name' rest' : String} (hplain : '/' ∉ name.toList) (hplain' : '/' ∉ name'.toList)
    (h : name ++ "/" ++ rest = name' ++ "/" ++ rest') : name = name' ∧ rest = rest' := by
  obtain ⟨htop, hafter⟩ := topLevel_join hplain rest
  obtain ⟨htop', hafter'⟩ := topLevel_join hplain' rest'
  rw [h] at htop hafter
  exact ⟨htop.symm.trans htop', Option.some.inj (hafter.symm.trans hafter')⟩

/-- The member an entry gives to the group of a name. -/
def memberUnder (name : String) (entry : FsEntry) : Option FsEntry :=
  if topLevel entry.path = name then
    (afterTopLevel entry.path).map fun rest => { entry with path := rest }
  else none

theorem groupEntry_get? (groups : InsertionMap String (List FsEntry)) (entry : FsEntry)
    (name : String) :
    (groupEntry groups entry).get? name =
      if topLevel entry.path = name then
        some ((groups.get? name).getD [] ++ (memberUnder name entry).toList)
      else groups.get? name := by
  unfold groupEntry memberUnder
  by_cases hname : topLevel entry.path = name
  · subst hname
    simp only [InsertionMap.get?_set_self, if_true]
    cases afterTopLevel entry.path <;> simp
  · simp only [if_neg hname]
    exact InsertionMap.get?_set_of_ne _ (Ne.symm hname) _

theorem foldl_groupEntry_get? (groups : InsertionMap String (List FsEntry)) (name : String) :
    (entries.foldl groupEntry groups).get? name =
      if (groups.get? name).isSome ∨ ∃ entry ∈ entries, topLevel entry.path = name then
        some ((groups.get? name).getD [] ++ entries.filterMap (memberUnder name))
      else none := by
  induction entries generalizing groups with
  | nil => cases hfound : groups.get? name <;> simp [hfound]
  | cons first rest ih =>
    rw [List.foldl_cons, ih, groupEntry_get?]
    by_cases hname : topLevel first.path = name
    · simp only [hname, if_true, Option.isSome_some, true_or, Option.getD_some,
        List.mem_cons, exists_eq_or_imp, true_or, or_true, List.filterMap_cons]
      cases memberUnder name first <;> simp
    · have hnone : memberUnder name first = none := if_neg hname
      simp only [hname, if_false, List.mem_cons, exists_eq_or_imp, false_or,
        List.filterMap_cons, hnone]

theorem groupByTopLevel_get? : (groupByTopLevel entries).get? name =
    if ∃ entry ∈ entries, topLevel entry.path = name then
      some (entries.filterMap (memberUnder name))
    else none := by
  unfold groupByTopLevel
  rw [foldl_groupEntry_get?]
  simp

theorem groupByTopLevel_nodup : ((groupByTopLevel entries).map Prod.fst).Nodup := by
  have hfold : ∀ groups : InsertionMap String (List FsEntry), (groups.map Prod.fst).Nodup →
      ((entries.foldl groupEntry groups).map Prod.fst).Nodup := by
    induction entries with
    | nil => exact fun groups h => h
    | cons first rest ih => exact fun groups h => ih _ (InsertionMap.nodup_set h _ _)
  exact hfold [] List.nodup_nil

theorem mem_groupByTopLevel {members : List FsEntry} :
    (name, members) ∈ groupByTopLevel entries ↔
      (∃ entry ∈ entries, topLevel entry.path = name) ∧
        members = entries.filterMap (memberUnder name) := by
  constructor
  · intro hmem
    have hfound := InsertionMap.get?_of_mem groupByTopLevel_nodup hmem
    rw [groupByTopLevel_get?] at hfound
    split at hfound
    · rename_i hentry
      exact ⟨hentry, (Option.some.inj hfound).symm⟩
    · cases hfound
  · rintro ⟨hentry, rfl⟩
    apply InsertionMap.mem_of_get?
    rw [groupByTopLevel_get?, if_pos hentry]

end Groups

/-! ## The area of one execution -/

structure StoredAmendment where
  name : String
  files : List PackageFile

/-- Everything below a directory belongs to one of these amendment directories, whose files are all
stored. -/
structure AreaWithin (store : EvidenceStore) (root : String) (area : List StoredAmendment) :
    Prop where
  names : (area.map StoredAmendment.name).Nodup
  plain : ∀ amendment ∈ area, '/' ∉ amendment.name.toList
  stored : ∀ amendment ∈ area, ∀ file ∈ amendment.files,
    (⟨root ++ "/" ++ amendment.name ++ "/" ++ file.path, file.bytes⟩ : PackageFile) ∈ store.files ∧
      invalidPathReason (root ++ "/" ++ amendment.name ++ "/" ++ file.path) = none
  onlyFiles : ∀ file ∈ store.files, ∀ rest, below root file.path = some rest →
    ∃ amendment ∈ area, ∃ own ∈ amendment.files, rest = amendment.name ++ "/" ++ own.path ∧
      own.bytes = file.bytes
  onlyDirectories : ∀ directory ∈ store.directories, ∀ rest, below root directory = some rest →
    ∃ amendment ∈ area, topLevel rest = amendment.name

def ShownIn (store : EvidenceStore) (root name : String) : Prop :=
  ∃ rest, root ++ "/" ++ rest ∈ store.directories ∧ topLevel rest = name

/-- The area consists of these amendment directories. -/
structure AreaHolds (store : EvidenceStore) (root : String) (area : List StoredAmendment) : Prop
    extends AreaWithin store root area where
  shown : ∀ amendment ∈ area, ShownIn store root amendment.name
  rooted : area ≠ [] → root ∈ store.directories

/-- The snapshots of an area, in whatever order they were listed. -/
structure SnapshotsOf (area : List StoredAmendment) (snapshots : List AmendmentSnapshot) :
    Prop where
  names : (snapshots.map AmendmentSnapshot.directory).Perm (area.map StoredAmendment.name)
  files : ∀ snapshot ∈ snapshots, ∀ amendment ∈ area, amendment.name = snapshot.directory →
    SameFiles snapshot.files amendment.files
  regular : ∀ snapshot ∈ snapshots, snapshot.specialEntries = []

section Area

variable {store : EvidenceStore} {root : String} {area : List StoredAmendment}
  {snapshots : List AmendmentSnapshot}

theorem mem_entriesBelow {entry : FsEntry} : entry ∈ store.entriesBelow root ↔
    (∃ file ∈ store.files, file.path = root ++ "/" ++ entry.path ∧ entry.type = .file) ∨
    (root ++ "/" ++ entry.path ∈ store.directories ∧ entry.type = .directory) := by
  unfold EvidenceStore.entriesBelow
  simp only [List.mem_insertionSort, List.mem_append, List.mem_filterMap, Option.map_eq_some_iff,
    below_eq_some]
  constructor
  · rintro (⟨file, hfile, path, hpath, rfl⟩ | ⟨directory, hdirectory, path, rfl, rfl⟩)
    · exact .inl ⟨file, hfile, hpath, rfl⟩
    · exact .inr ⟨hdirectory, rfl⟩
  · rintro (⟨file, hfile, hpath, htype⟩ | ⟨hdirectory, htype⟩)
    · exact .inl ⟨file, hfile, entry.path, hpath, by rw [← htype]⟩
    · exact .inr ⟨_, hdirectory, entry.path, rfl, by rw [← htype]⟩

theorem AreaHolds.top_iff (h : AreaHolds store root area) (name : String) :
    (∃ entry ∈ store.entriesBelow root, topLevel entry.path = name) ↔
      ∃ amendment ∈ area, amendment.name = name := by
  constructor
  · rintro ⟨entry, hentry, rfl⟩
    rcases mem_entriesBelow.mp hentry with ⟨file, hfile, hpath, -⟩ | ⟨hdirectory, -⟩
    · obtain ⟨amendment, hmem, own, -, hrest, -⟩ :=
        h.onlyFiles file hfile entry.path (below_eq_some.mpr hpath)
      refine ⟨amendment, hmem, ?_⟩
      rw [hrest, (topLevel_join (h.plain amendment hmem) own.path).1]
    · obtain ⟨amendment, hmem, htop⟩ := h.onlyDirectories _ hdirectory entry.path (below_join _ _)
      exact ⟨amendment, hmem, htop.symm⟩
  · rintro ⟨amendment, hmem, rfl⟩
    obtain ⟨rest, hrest, htop⟩ := h.shown amendment hmem
    exact ⟨⟨rest, .directory⟩, mem_entriesBelow.mpr (.inr ⟨hrest, rfl⟩), htop⟩

theorem mem_members (hplain : '/' ∉ name.toList) {member : FsEntry}
    (hfile : member.type = .file) :
    member ∈ (store.entriesBelow root).filterMap (memberUnder name) ↔
      ∃ file ∈ store.files, file.path = root ++ "/" ++ name ++ "/" ++ member.path := by
  have hjoin : ∀ path : String, root ++ "/" ++ (name ++ "/" ++ path) =
      root ++ "/" ++ name ++ "/" ++ path := fun path => by
    simp only [String.append_assoc]
  rw [List.mem_filterMap]
  constructor
  · rintro ⟨entry, hentry, hmember⟩
    unfold memberUnder at hmember
    split at hmember
    · rename_i htop
      obtain ⟨rest, hrest, rfl⟩ := Option.map_eq_some_iff.mp hmember
      have hpath : entry.path = name ++ "/" ++ rest := by
        rw [← htop]
        exact eq_join_of_afterTopLevel hrest
      rcases mem_entriesBelow.mp hentry with ⟨file, hstored, hstoredPath, -⟩ | ⟨-, htype⟩
      · exact ⟨file, hstored, by rw [hstoredPath, hpath, hjoin]⟩
      · rw [show entry.type = .file from hfile] at htype
        cases htype
    · cases hmember
  · rintro ⟨file, hstored, hpath⟩
    refine ⟨⟨name ++ "/" ++ member.path, .file⟩, ?_, ?_⟩
    · exact mem_entriesBelow.mpr (.inl ⟨file, hstored, by rw [hpath, hjoin], rfl⟩)
    · obtain ⟨htop, hafter⟩ := topLevel_join hplain member.path
      simp only [memberUnder, htop, if_true, hafter, Option.map_some]
      rw [← hfile]

theorem EvidenceStore.read_ok (h : store.read path = .ok bytes) :
    (⟨path, bytes⟩ : PackageFile) ∈ store.files := by
  unfold EvidenceStore.read at h
  split at h
  · cases h
  · split at h
    · rename_i file hfile
      obtain rfl := Except.ok.inj h
      obtain ⟨hmem, rfl⟩ := fileAt_mem hfile
      exact hmem
    · split at h <;> cases h

theorem EvidenceStore.read_of_mem
    (hmem : (⟨path, bytes⟩ : PackageFile) ∈ store.files) (hvalid : invalidPathReason path = none) :
    store.read path = .ok bytes := by
  have hfound := fileAt_of_mem store.distinct hmem
  simp only [EvidenceStore.read, hvalid, Option.isSome_none, Bool.false_eq_true, if_false]
  rw [show fileAt store.files path = some ⟨path, bytes⟩ from hfound]

theorem AreaHolds.mem_groups (h : AreaHolds store root area)
    {members : List FsEntry} :
    (name, members) ∈ groupByTopLevel (store.entriesBelow root) ↔
      (∃ amendment ∈ area, amendment.name = name) ∧
        members = (store.entriesBelow root).filterMap (memberUnder name) := by
  rw [mem_groupByTopLevel, h.top_iff]

theorem AreaHolds.sameFiles (h : AreaHolds store root area) {group : String × List FsEntry}
    {snapshot : AmendmentSnapshot} {amendment : StoredAmendment}
    (hgroup : group ∈ groupByTopLevel (store.entriesBelow root))
    (hfrom : SnapshotFrom store root group snapshot) (hmem : amendment ∈ area)
    (hname : amendment.name = group.1) : SameFiles snapshot.files amendment.files := by
  obtain ⟨name, members⟩ := group
  subst hname
  have hplain := h.plain amendment hmem
  obtain ⟨-, rfl⟩ := h.mem_groups.mp hgroup
  obtain ⟨hentryOf, hfileOf⟩ := forall₂_mem hfrom.files
  intro file
  constructor
  · intro hfile
    obtain ⟨entry, hentry, hpath, hread⟩ := hfileOf file hfile
    have hstored := EvidenceStore.read_ok hread
    have hbelow : below root (root ++ "/" ++ amendment.name ++ "/" ++ entry.path) =
        some (amendment.name ++ "/" ++ entry.path) := by
      rw [below_eq_some]
      simp only [String.append_assoc]
    obtain ⟨other, hother, own, hown, hsplit, hbytes⟩ := h.onlyFiles _ hstored _ hbelow
    obtain ⟨hnames, hpaths⟩ := join_inj hplain (h.plain other hother) hsplit
    obtain rfl : amendment = other := List.inj_on_of_nodup_map h.names hmem hother hnames
    have hsame : file = own := by
      cases file
      cases own
      simp_all
    rw [hsame]
    exact hown
  · intro hfile
    obtain ⟨hstored, hvalid⟩ := h.stored amendment hmem file hfile
    have hmember : (⟨file.path, .file⟩ : FsEntry) ∈
        (store.entriesBelow root).filterMap (memberUnder amendment.name) :=
      (mem_members hplain rfl).mpr ⟨_, hstored, rfl⟩
    obtain ⟨read, hread, hpath, hbytes⟩ :=
      hentryOf ⟨file.path, .file⟩ (List.mem_filter.mpr ⟨hmember, rfl⟩)
    rw [EvidenceStore.read_of_mem hstored hvalid] at hbytes
    have hsame : file = read := by
      cases file
      cases read
      simp_all
    rw [hsame]
    exact hread

theorem AreaHolds.regular (h : AreaHolds store root area) {group : String × List FsEntry}
    (hgroup : group ∈ groupByTopLevel (store.entriesBelow root)) :
    (group.2.filter fun entry => entry.type != .file && entry.type != .directory) = [] := by
  obtain ⟨name, members⟩ := group
  obtain ⟨-, rfl⟩ := h.mem_groups.mp hgroup
  rw [List.filter_eq_nil_iff]
  intro member hmember
  obtain ⟨entry, hentry, hunder⟩ := List.mem_filterMap.mp hmember
  have htype : member.type = entry.type := by
    unfold memberUnder at hunder
    split at hunder
    · obtain ⟨rest, -, rfl⟩ := Option.map_eq_some_iff.mp hunder
      rfl
    · cases hunder
  rcases mem_entriesBelow.mp hentry with ⟨-, -, -, hkind⟩ | ⟨-, hkind⟩ <;> simp [htype, hkind]

theorem snapshot_names {groups : List (String × List FsEntry)}
    (h : List.Forall₂ (SnapshotFrom store root) groups snapshots) :
    snapshots.map AmendmentSnapshot.directory = groups.map Prod.fst := by
  induction h with
  | nil => rfl
  | cons hfirst _ ih => simp only [List.map_cons, hfirst.name, ih]

theorem AreaHolds.snapshotsOf (h : AreaHolds store root area)
    (hread : SnapshotsFrom store root snapshots) : SnapshotsOf area snapshots := by
  rcases hread with ⟨hlist, rfl⟩ | ⟨entries, hlist, hgroups⟩
  · have hempty : area = [] := by
      by_contra hne
      simp only [EvidenceStore.list, h.rooted hne, if_true] at hlist
      split at hlist <;> cases hlist
    subst hempty
    exact ⟨.nil, fun _ hmem => absurd hmem List.not_mem_nil,
      fun _ hmem => absurd hmem List.not_mem_nil⟩
  · have hentries : entries = store.entriesBelow root := by
      unfold EvidenceStore.list at hlist
      split at hlist
      · cases hlist
      · split at hlist
        · exact (Except.ok.inj hlist).symm
        · split at hlist <;> cases hlist
    subst hentries
    refine ⟨?_, fun snapshot hmem amendment hamendment hname => ?_, fun snapshot hmem => ?_⟩
    · rw [snapshot_names hgroups, List.perm_ext_iff_of_nodup groupByTopLevel_nodup h.names]
      intro name
      simp only [List.mem_map, Prod.exists, exists_and_right, exists_eq_right]
      rw [← h.top_iff]
      constructor
      · rintro ⟨members, hgroup⟩
        exact (mem_groupByTopLevel.mp hgroup).1
      · intro htop
        exact ⟨_, mem_groupByTopLevel.mpr ⟨htop, rfl⟩⟩
    · obtain ⟨group, hgroup, hfrom⟩ := (forall₂_mem hgroups).2 snapshot hmem
      exact h.sameFiles hgroup hfrom hamendment (hname.trans hfrom.name)
    · obtain ⟨group, hgroup, hfrom⟩ := (forall₂_mem hgroups).2 snapshot hmem
      rw [hfrom.special]
      exact h.regular hgroup

theorem AreaWithin.open (h : AreaWithin store root area)
    (hplain : '/' ∉ name.toList) (hnew : ∀ amendment ∈ area, amendment.name ≠ name) :
    AreaWithin store root (area ++ [⟨name, []⟩]) := by
  constructor
  · rw [List.map_append]
    refine h.names.append (List.nodup_singleton _) ?_
    intro other hother hlast
    obtain ⟨amendment, hmem, rfl⟩ := List.mem_map.mp hother
    exact hnew amendment hmem (List.mem_singleton.mp hlast)
  · intro amendment hmem
    rcases List.mem_append.mp hmem with hmem | hmem
    · exact h.plain amendment hmem
    · rw [List.mem_singleton.mp hmem]
      exact hplain
  · intro amendment hmem file hfile
    rcases List.mem_append.mp hmem with hmem | hmem
    · exact h.stored amendment hmem file hfile
    · rw [List.mem_singleton.mp hmem] at hfile
      exact absurd hfile List.not_mem_nil
  · intro file hfile rest hrest
    obtain ⟨amendment, hmem, hfound⟩ := h.onlyFiles file hfile rest hrest
    exact ⟨amendment, List.mem_append_left _ hmem, hfound⟩
  · intro directory hdirectory rest hrest
    obtain ⟨amendment, hmem, hfound⟩ := h.onlyDirectories directory hdirectory rest hrest
    exact ⟨amendment, List.mem_append_left _ hmem, hfound⟩

theorem AreaWithin.grow {store' : EvidenceStore} {files added : List PackageFile}
    (h : AreaWithin store root (area ++ [⟨name, files⟩]))
    (hfiles : ∀ file, file ∈ store'.files ↔ file ∈ store.files ∨ ∃ own ∈ added,
      file = ⟨root ++ "/" ++ name ++ "/" ++ own.path, own.bytes⟩)
    (hvalid : ∀ own ∈ added, invalidPathReason (root ++ "/" ++ name ++ "/" ++ own.path) = none)
    (honly : ∀ directory ∈ store'.directories, directory ∈ store.directories ∨
      ∀ rest, below root directory = some rest → topLevel rest = name) :
    AreaWithin store' root (area ++ [⟨name, files ++ added⟩]) := by
  have hlast : (⟨name, files ++ added⟩ : StoredAmendment) ∈ area ++ [⟨name, files ++ added⟩] := by
    simp
  constructor
  · have hnames := h.names
    rw [List.map_append] at hnames ⊢
    exact hnames
  · intro amendment hmem
    rcases List.mem_append.mp hmem with hmem | hmem
    · exact h.plain amendment (List.mem_append_left _ hmem)
    · rw [List.mem_singleton.mp hmem]
      exact h.plain ⟨name, files⟩ (by simp)
  · intro amendment hmem file hfile
    rcases List.mem_append.mp hmem with hmem | hmem
    · obtain ⟨hstored, hpath⟩ := h.stored amendment (List.mem_append_left _ hmem) file hfile
      exact ⟨(hfiles _).mpr (.inl hstored), hpath⟩
    · obtain rfl := List.mem_singleton.mp hmem
      rcases List.mem_append.mp hfile with hfile | hfile
      · obtain ⟨hstored, hpath⟩ := h.stored ⟨name, files⟩ (by simp) file hfile
        exact ⟨(hfiles _).mpr (.inl hstored), hpath⟩
      · exact ⟨(hfiles _).mpr (.inr ⟨file, hfile, rfl⟩), hvalid file hfile⟩
  · intro file hfile rest hrest
    rcases (hfiles file).mp hfile with hfile | ⟨own, hadded, rfl⟩
    · obtain ⟨amendment, hmem, own, hown, hsplit, hbytes⟩ := h.onlyFiles file hfile rest hrest
      rcases List.mem_append.mp hmem with hmem | hmem
      · exact ⟨amendment, List.mem_append_left _ hmem, own, hown, hsplit, hbytes⟩
      · obtain rfl := List.mem_singleton.mp hmem
        exact ⟨_, hlast, own, List.mem_append_left _ hown, hsplit, hbytes⟩
    · have hrest' : name ++ "/" ++ own.path = rest := by
        refine Option.some.inj (Eq.trans ?_ hrest)
        rw [eq_comm, below_eq_some]
        simp only [String.append_assoc]
      exact ⟨_, hlast, own, List.mem_append_right _ hadded, hrest'.symm, rfl⟩
  · intro directory hdirectory rest hrest
    rcases honly directory hdirectory with hold | hown
    · obtain ⟨amendment, hmem, htop⟩ := h.onlyDirectories directory hold rest hrest
      rcases List.mem_append.mp hmem with hmem | hmem
      · exact ⟨amendment, List.mem_append_left _ hmem, htop⟩
      · obtain rfl := List.mem_singleton.mp hmem
        exact ⟨_, hlast, htop⟩
    · exact ⟨_, hlast, hown rest hrest⟩

/-! ### A read that works -/

/-- A complete run on a store that stays as it is. -/
abbrev Reads {α : Type} (p : FsProgram α) (store : EvidenceStore) (value : α) : Prop :=
  RunsTo (fileMachine.answers ()) alone p store value store

theorem reads_bind {ε α β : Type} {p : ExceptT ε (Program FsCall FsReply) α}
    {rest : α → ExceptT ε (Program FsCall FsReply) β} {value : α} {result : Except ε β}
    (hfirst : Reads p.run store (.ok value)) (hrest : Reads (rest value).run store result) :
    Reads (p >>= rest).run store result := by
  have hsequence : ∀ (q : Program FsCall FsReply (Except ε α)) (before : EvidenceStore),
      RunsTo (fileMachine.answers ()) alone q before (.ok value) store →
      RunsTo (fileMachine.answers ()) alone (q >>= ExceptT.bindCont rest) before result store := by
    intro q before hrun
    generalize hok : (Except.ok value : Except ε α) = first at hrun
    induction hrun with
    | ret hrel =>
      subst hok
      obtain rfl := hrel
      exact hrest
    | call hrel hanswer _ ih => exact .call hrel hanswer (ih hfirst hrest hok)
  exact hsequence p.run store hfirst

theorem readFile_reads (h : store.read path = .ok bytes) :
    Reads (readFile path).run store (.ok bytes) :=
  .call rfl ⟨.works, by rw [← h]; rfl⟩ (.ret rfl)

theorem readFiles_reads {directory : String} {entries : List FsEntry}
    (h : ∀ entry ∈ entries, ∃ bytes, store.read (directory ++ "/" ++ entry.path) = .ok bytes) :
    ∃ files, Reads (readFiles directory entries).run store (.ok files) := by
  induction entries with
  | nil => exact ⟨[], .ret rfl⟩
  | cons entry rest ih =>
    obtain ⟨bytes, hbytes⟩ := h entry List.mem_cons_self
    obtain ⟨files, hfiles⟩ := ih fun other hother => h other (List.mem_cons_of_mem _ hother)
    exact ⟨⟨entry.path, bytes⟩ :: files,
      reads_bind (readFile_reads hbytes) (reads_bind hfiles (.ret rfl))⟩

theorem readGroups_reads {groups : List (String × List FsEntry)}
    (h : ∀ group ∈ groups, ∀ entry ∈ group.2, entry.type = .file →
      ∃ bytes, store.read (root ++ "/" ++ group.1 ++ "/" ++ entry.path) = .ok bytes) :
    ∃ snapshots, Reads (readGroups root groups).run store (.ok snapshots) := by
  induction groups with
  | nil => exact ⟨[], .ret rfl⟩
  | cons group rest ih =>
    obtain ⟨snapshots, hsnapshots⟩ :=
      ih fun other hother => h other (List.mem_cons_of_mem _ hother)
    have hmembers : ∀ entry ∈ group.2.filter (fun entry => entry.type == .file),
        ∃ bytes, store.read (root ++ "/" ++ group.1 ++ "/" ++ entry.path) = .ok bytes := by
      intro entry hentry
      obtain ⟨hmem, htype⟩ := List.mem_filter.mp hentry
      exact h group List.mem_cons_self entry hmem (by simpa using htype)
    obtain ⟨files, hfiles⟩ := readFiles_reads hmembers
    exact ⟨_, reads_bind (reads_bind hfiles (.ret rfl)) (reads_bind hsnapshots (.ret rfl))⟩

theorem AreaHolds.reads (h : AreaHolds store root area) {identity : ExecutionIdentity}
    (hroot : root = amendmentsDirectory identity) (hvalid : invalidPathReason root = none)
    (hmade : root ∈ store.directories) :
    ∃ snapshots, Reads (readAmendmentSnapshots identity) store (.ok snapshots) := by
  have hlist : store.list root = .ok (store.entriesBelow root) := by
    simp [EvidenceStore.list, hvalid, hmade]
  have hfiles : ∀ group ∈ groupByTopLevel (store.entriesBelow root), ∀ entry ∈ group.2,
      entry.type = .file →
      ∃ bytes, store.read (root ++ "/" ++ group.1 ++ "/" ++ entry.path) = .ok bytes := by
    rintro ⟨name, members⟩ hgroup entry hentry htype
    obtain ⟨⟨amendment, hamendment, rfl⟩, rfl⟩ := h.mem_groups.mp hgroup
    obtain ⟨file, hfile, hpath⟩ := (mem_members (h.plain amendment hamendment) htype).mp hentry
    have hbelow : below root file.path = some (amendment.name ++ "/" ++ entry.path) := by
      rw [below_eq_some, hpath]
      simp only [String.append_assoc]
    obtain ⟨other, hother, own, hown, hsplit, hbytes⟩ := h.onlyFiles file hfile _ hbelow
    obtain ⟨hnames, hpaths⟩ := join_inj (h.plain amendment hamendment) (h.plain other hother) hsplit
    obtain ⟨hstored, hvalidPath⟩ := h.stored other hother own hown
    rw [← hnames, ← hpaths] at hstored hvalidPath
    exact ⟨own.bytes, EvidenceStore.read_of_mem hstored hvalidPath⟩
  obtain ⟨snapshots, hsnapshots⟩ := readGroups_reads hfiles
  have hanswer : fileMachine.answers () (.list root) store
      (.ok (store.entriesBelow root) : Except FsFailure (List FsEntry)) store :=
    ⟨.works, by rw [← hlist]; rfl⟩
  subst hroot
  exact ⟨snapshots, .call rfl hanswer hsnapshots⟩

end Area

end RefundStudy.Package
