/-
  Writing amendments next to a finalized package (`execution-lifecycle/amendment-writer.ts`;
  BR-RUA-043, BR-RUA-044).

  Whatever call is interrupted where, the area is a chain of whole amendments, followed by at most
  one amendment directory without an index (`AreaState`).
-/
import RefundStudy.Package.Amendments
import RefundStudy.Package.AmendmentArea

set_option autoImplicit false

namespace RefundStudy.Package

open Foundation Record

/-! ## The writer -/

/-- What every amendment of one execution shares: the admitted execution and the digest of its
original package index, which is never rewritten. -/
structure AmendedExecution where
  identity : ExecutionIdentity
  manifestSha256 : Sha256Hex
  originalIndexSha256 : Sha256Hex

/-- The length of a byte array is a safe integer. -/
structure AmendmentWrite where
  kind : AmendmentKind
  payload : List PackageFile
  subject : String
  sizes : ∀ file ∈ payload, file.bytes.length ≤ maxSafeInteger

/-- The services a writer is built with: the digest and the record files. -/
structure WriterServices where
  digest : ByteDigest
  records : AmendmentIndexFiles

/-- The index file of the amendment whose directory name is last. -/
def parentIndex (existing : List AmendmentSnapshot) : Option PackageFile :=
  (existing.insertionSort
    fun first second => codeUnitsLe first.directory second.directory).getLast?.bind
    fun last => fileAt last.files amendmentIndexPath

/-- The amendment to build after the existing ones. -/
def nextInput (services : WriterServices) (execution : AmendedExecution) (write : AmendmentWrite)
    (existing : List AmendmentSnapshot) (id : Uuid4) (time : UtcMillis) : AmendmentInput where
  identity := execution.identity
  executionManifestSha256 := execution.manifestSha256
  amendmentId := id
  amendmentKind := write.kind
  sequence := existing.length + 1
  originalPackageIndexSha256 := execution.originalIndexSha256
  parentAmendmentIndexSha256 := (parentIndex existing).map fun file => services.digest file.bytes
  payload := write.payload
  createdAt := time

def writeFiles (directory subject : String) :
    List PackageFile → FsProgram (Except (List AmendmentFailure) Unit)
  | [] => .ret (.ok ())
  | file :: rest =>
    .call (.writeOnce (directory ++ "/" ++ file.path) file.bytes) fun
      | .ok () => writeFiles directory subject rest
      | .error _ => .ret (.error [.amendmentNotWritten subject])

def writeBuilt (subject : String) :
    Except (List AmendmentFailure) BuiltAmendment →
      FsProgram (Except (List AmendmentFailure) String)
  | .error reasons => .ret (.error reasons)
  | .ok built => do
    match ← writeFiles built.directory subject built.files with
    | .ok () => .ret (.ok built.directory)
    | .error reasons => .ret (.error reasons)

def writeAmendmentPackage (services : WriterServices) (execution : AmendedExecution)
    (write : AmendmentWrite) : FsProgram (Except (List AmendmentFailure) String) := do
  match ← readAmendmentSnapshots execution.identity with
  | .error _ => .ret (.error [.amendmentsUnreadable write.subject])
  | .ok existing =>
    .call .nextId fun id => .call .now fun time =>
      writeBuilt write.subject (buildAmendment services.digest services.records
        (nextInput services execution write existing id time))

/-! ## A directory being filled -/

/-- An area and one more amendment directory, of which these files are written. -/
structure Opening (store : EvidenceStore) (root : String) (area : List StoredAmendment)
    (name : String) (files : List PackageFile) : Prop
    extends AreaWithin store root (area ++ [⟨name, files⟩]) where
  shown : ∀ amendment ∈ area, ShownIn store root amendment.name
  rooted : area ≠ [] ∨ ShownIn store root name → root ∈ store.directories
  begun : files ≠ [] → ShownIn store root name

section Filling

variable {store store' : EvidenceStore} {root name : String} {area : List StoredAmendment}
  {files added : List PackageFile}

theorem AreaHolds.opening (h : AreaHolds store root area) (hplain : '/' ∉ name.toList)
    (hnew : ∀ amendment ∈ area, amendment.name ≠ name) : Opening store root area name [] := by
  refine ⟨h.toAreaWithin.open hplain hnew, h.shown, ?_, fun hne => absurd rfl hne⟩
  rintro (hne | ⟨rest, hrest, htop⟩)
  · exact h.rooted hne
  · obtain ⟨amendment, hmem, hname⟩ := h.onlyDirectories _ hrest rest (below_join _ _)
    exact absurd (hname.symm.trans htop) (hnew amendment hmem)

/-- A directory being filled is there with its files, or nothing of it is there. -/
theorem Opening.settle (h : Opening store root area name files) :
    AreaHolds store root (area ++ [⟨name, files⟩]) ∨ files = [] ∧ AreaHolds store root area := by
  by_cases hshown : ShownIn store root name
  · left
    refine ⟨h.toAreaWithin, fun amendment hmem => ?_, fun _ => h.rooted (.inr hshown)⟩
    rcases List.mem_append.mp hmem with hmem | hmem
    · exact h.shown amendment hmem
    · rw [List.mem_singleton.mp hmem]
      exact hshown
  · right
    have hempty : files = [] := by
      by_contra hne
      exact hshown (h.begun hne)
    subst hempty
    have hnames := h.names
    rw [List.map_append] at hnames
    refine ⟨rfl, ⟨hnames.of_append_left, fun amendment hmem => ?_, fun amendment hmem => ?_,
      fun file hfile rest hrest => ?_, fun directory hdirectory rest hrest => ?_⟩, h.shown,
      fun hne => h.rooted (.inl hne)⟩
    · exact h.plain amendment (List.mem_append_left _ hmem)
    · exact h.stored amendment (List.mem_append_left _ hmem)
    · obtain ⟨amendment, hmem, own, hown, hfound⟩ := h.onlyFiles file hfile rest hrest
      rcases List.mem_append.mp hmem with hmem | hmem
      · exact ⟨amendment, hmem, own, hown, hfound⟩
      · rw [List.mem_singleton.mp hmem] at hown
        exact absurd hown List.not_mem_nil
    · obtain ⟨amendment, hmem, htop⟩ := h.onlyDirectories directory hdirectory rest hrest
      rcases List.mem_append.mp hmem with hmem | hmem
      · exact ⟨amendment, hmem, htop⟩
      · rw [List.mem_singleton.mp hmem] at htop
        rw [below_eq_some.mp hrest] at hdirectory
        exact absurd ⟨rest, hdirectory, htop⟩ hshown

theorem topLevel_of_above (hplain : '/' ∉ name.toList) {path directory rest more : String}
    (habove : root ++ "/" ++ name ++ "/" ++ path = directory ++ "/" ++ more)
    (hbelow : below root directory = some rest) : topLevel rest = name := by
  rw [below_eq_some.mp hbelow] at habove
  have hrest : name ++ "/" ++ path = rest ++ "/" ++ more := by
    have hchars := congrArg String.toList habove
    simp only [String.toList_append, List.append_assoc] at hchars
    have htail := List.append_cancel_left (List.append_cancel_left hchars)
    apply String.toList_inj.mp
    simpa only [String.toList_append, List.append_assoc] using htail
  rw [← topLevel_front rest more, ← hrest]
  exact (topLevel_join hplain path).1

theorem Opening.extend (h : Opening store root area name files)
    (hplain : '/' ∉ name.toList) (path : String)
    (hfiles : ∀ file, file ∈ store'.files ↔ file ∈ store.files ∨ ∃ own ∈ added,
      file = ⟨root ++ "/" ++ name ++ "/" ++ own.path, own.bytes⟩)
    (hvalid : ∀ own ∈ added, invalidPathReason (root ++ "/" ++ name ++ "/" ++ own.path) = none)
    (hkept : ∀ directory ∈ store.directories, directory ∈ store'.directories)
    (hmade : ∀ directory ∈ store'.directories, directory ∈ store.directories ∨
      (∃ more, root ++ "/" ++ name ++ "/" ++ path = directory ++ "/" ++ more) ∧
        ∀ rest, below root directory = some rest → root ∈ store'.directories)
    (hbegun : added ≠ [] → ShownIn store' root name) :
    Opening store' root area name (files ++ added) := by
  have hshown : ∀ other, ShownIn store root other → ShownIn store' root other := by
    rintro other ⟨rest, hrest, htop⟩
    exact ⟨rest, hkept _ hrest, htop⟩
  refine ⟨h.toAreaWithin.grow hfiles hvalid fun directory hdirectory => ?_,
    fun amendment hmem => hshown _ (h.shown amendment hmem), ?_, fun hne => ?_⟩
  · rcases hmade directory hdirectory with hold | ⟨⟨more, habove⟩, -⟩
    · exact .inl hold
    · exact .inr fun rest hrest => topLevel_of_above hplain habove hrest
  · rintro (hne | ⟨rest, hrest, htop⟩)
    · exact hkept _ (h.rooted (.inl hne))
    · rcases hmade _ hrest with hold | ⟨-, hroot⟩
      · exact hkept _ (h.rooted (.inr ⟨rest, hold, htop⟩))
      · exact hroot rest (below_join _ _)
  · by_cases hadded : added = []
    · subst hadded
      rw [List.append_nil] at hne
      exact hshown _ (h.begun hne)
    · exact hbegun hadded

theorem mem_makeDirectories {made : List String} {directory : String} :
    directory ∈ (store.makeDirectories made).directories ↔
      directory ∈ store.directories ∨ directory ∈ made := by
  by_cases hold : directory ∈ store.directories <;>
    simp [EvidenceStore.makeDirectories, hold]

theorem ancestors_trans {path directory above : String} (h : directory ∈ ancestors path)
    (habove : above ∈ ancestors directory) : above ∈ ancestors path := by
  obtain ⟨rest, rfl⟩ := mem_ancestors.mp h
  obtain ⟨more, rfl⟩ := mem_ancestors.mp habove
  exact mem_ancestors.mpr ⟨more ++ "/" ++ rest, by simp only [String.append_assoc]⟩

/-- Directories above a path of the amendment may be made, the area's own with them. -/
theorem Opening.makeDirectories (h : Opening store root area name files)
    (hplain : '/' ∉ name.toList) (path : String) {made : List String}
    (habove : ∀ directory ∈ made, directory ∈ ancestors (root ++ "/" ++ name ++ "/" ++ path))
    (hwith : ∀ directory ∈ made, root ∈ ancestors directory → root ∈ made) :
    Opening (store.makeDirectories made) root area name files := by
  rw [← List.append_nil files]
  refine h.extend hplain path (fun file => ?_) (fun own hmem => absurd hmem List.not_mem_nil)
    (fun directory hmem => mem_makeDirectories.mpr (.inl hmem)) (fun directory hmem => ?_)
    (fun hne => absurd rfl hne)
  · simp [EvidenceStore.makeDirectories]
  · rcases mem_makeDirectories.mp hmem with hold | hnew
    · exact .inl hold
    · refine .inr ⟨mem_ancestors.mp (habove directory hnew), fun rest hrest => ?_⟩
      have hroot : root ∈ ancestors directory := mem_ancestors.mpr ⟨rest, below_eq_some.mp hrest⟩
      exact mem_makeDirectories.mpr (.inr (hwith directory hnew hroot))

/-- `writeOnce` creates the file, or makes at most its parent directories. -/
theorem writeOnce_cases (store : EvidenceStore) (path : String) (bytes : Bytes) :
    (∃ hfree, invalidPathReason path = none ∧ store.writeOnce path bytes =
      (.ok (), (store.makeDirectories (ancestors path)).create path bytes hfree)) ∨
    ∃ failure after, store.writeOnce path bytes = (.error failure, after) ∧
      (after = store ∨ after = store.makeDirectories (ancestors path)) := by
  unfold EvidenceStore.writeOnce
  split
  · exact .inr ⟨_, _, rfl, .inl rfl⟩
  · rename_i hvalid
    split
    · exact .inr ⟨_, _, rfl, .inl rfl⟩
    · simp only
      split
      · rename_i hfree
        split
        · exact .inr ⟨_, _, rfl, .inr rfl⟩
        · exact .inl ⟨hfree, by simpa using hvalid, rfl⟩
      · exact .inr ⟨_, _, rfl, .inr rfl⟩

/-- One file of the amendment, answered: it is there as well, or nothing but directories is new. -/
theorem Opening.writeOnce (h : Opening store root area name files) (hplain : '/' ∉ name.toList)
    {file : PackageFile} {reply : Except FsFailure Unit}
    (hanswer : fileMachine.answers () (.writeOnce (root ++ "/" ++ name ++ "/" ++ file.path)
      file.bytes) store reply store') :
    (reply = .ok () ∧ Opening store' root area name (files ++ [file])) ∨
      ∃ failure, reply = .error failure ∧ Opening store' root area name files := by
  have hroot : root ∈ ancestors (root ++ "/" ++ name ++ "/" ++ file.path) :=
    mem_ancestors.mpr ⟨name ++ "/" ++ file.path, by simp only [String.append_assoc]⟩
  have hmade := h.makeDirectories hplain file.path (fun _ hmem => hmem) (fun _ _ _ => hroot)
  rcases answers_writeOnce hanswer with hwrite | ⟨rfl, rfl | ⟨directory, hdirectory, rfl⟩⟩
  · rcases writeOnce_cases store (root ++ "/" ++ name ++ "/" ++ file.path) file.bytes with
      ⟨hfree, hvalid, hok⟩ | ⟨failure, after, herror, hafter⟩
    · rw [hok] at hwrite
      obtain ⟨rfl, rfl⟩ := Prod.mk.inj hwrite
      refine .inl ⟨rfl, hmade.extend hplain file.path (fun stored => ?_) (fun own hmem => ?_)
        (fun _ hmem => hmem) (fun _ hmem => .inl hmem) (fun _ => ?_)⟩
      · simp [EvidenceStore.create]
      · rw [List.mem_singleton.mp hmem]
        exact hvalid
      · refine ⟨name, mem_makeDirectories.mpr (.inr (mem_ancestors.mpr ⟨file.path, rfl⟩)), ?_⟩
        rw [← topLevel_front name file.path]
        exact (topLevel_join hplain file.path).1
    · rw [herror] at hwrite
      obtain ⟨rfl, rfl⟩ := Prod.mk.inj hwrite
      rcases hafter with rfl | rfl
      · exact .inr ⟨_, rfl, h⟩
      · exact .inr ⟨_, rfl, hmade⟩
  · exact .inr ⟨_, rfl, h⟩
  · refine .inr ⟨_, rfl, h.makeDirectories hplain file.path (fun other hmem => ?_)
      (fun other hmem hother => ?_)⟩
    · rcases List.mem_append.mp hmem with hmem | hmem
      · exact ancestors_trans hdirectory hmem
      · rw [List.mem_singleton.mp hmem]
        exact hdirectory
    · rcases List.mem_append.mp hmem with hmem | hmem
      · exact List.mem_append_left _ (ancestors_trans hmem hother)
      · rw [List.mem_singleton.mp hmem] at hother
        exact List.mem_append_left _ hother

end Filling

/-! ## Written amendments -/

structure WrittenAmendment where
  input : AmendmentInput
  built : BuiltAmendment

def WrittenAmendment.name (written : WrittenAmendment) : String :=
  amendmentDirectoryName written.input.sequence written.input.amendmentId

def WrittenAmendment.stored (written : WrittenAmendment) : StoredAmendment :=
  ⟨written.name, written.built.files⟩

def WrittenAmendment.indexSha256 (services : WriterServices) (written : WrittenAmendment) :
    Sha256Hex :=
  services.digest (services.records.serializeRecordFile written.built.index)

/-- No payload file is called like the index. -/
def NamesApart (payload : List PackageFile) : Prop :=
  ∀ file ∈ payload, namedLikeIndex file.path = false

/-- An amendment written after these, with a payload of the allowed kind. -/
structure WrittenAfter (services : WriterServices) (execution : AmendedExecution)
    (allowed : List PackageFile → Prop) (done : List WrittenAmendment) (written : WrittenAmendment) : Prop where
  built : BuiltFrom services.digest services.records written.input written.built
  identity : written.input.identity = execution.identity
  manifest : written.input.executionManifestSha256 = execution.manifestSha256
  original : written.input.originalPackageIndexSha256 = execution.originalIndexSha256
  sequence : written.input.sequence = done.length + 1
  parent : written.input.parentAmendmentIndexSha256 =
    done.getLast?.map (WrittenAmendment.indexSha256 services)
  sizes : ∀ file ∈ written.input.payload, file.bytes.length ≤ maxSafeInteger
  payload : allowed written.input.payload

inductive Written (services : WriterServices) (execution : AmendedExecution)
    (allowed : List PackageFile → Prop) : List WrittenAmendment → Prop where
  | start : Written services execution allowed []
  | next {done : List WrittenAmendment} {written : WrittenAmendment}
      (before : Written services execution allowed done)
      (after : WrittenAfter services execution allowed done written) :
      Written services execution allowed (done ++ [written])

structure LeftOpen (done : List WrittenAmendment) (amendment : StoredAmendment) : Prop where
  name : ∃ id, amendment.name = amendmentDirectoryName (done.length + 1) id
  noIndex : fileAt amendment.files amendmentIndexPath = none

/-- What calls leave behind, however many of them were interrupted: whole amendments, and at most
one directory without an index. -/
inductive AreaState (services : WriterServices) (execution : AmendedExecution)
    (allowed : List PackageFile → Prop) (calls : Nat) (store : EvidenceStore) : Prop where
  | whole {done : List WrittenAmendment} (written : Written services execution allowed done)
      (bound : done.length ≤ calls)
      (area : AreaHolds store (amendmentsDirectory execution.identity)
        (done.map WrittenAmendment.stored))
  | interrupted {done : List WrittenAmendment} {left : StoredAmendment}
      (written : Written services execution allowed done) (bound : done.length + 1 ≤ calls)
      (leftOpen : LeftOpen done left)
      (area : AreaHolds store (amendmentsDirectory execution.identity)
        (done.map WrittenAmendment.stored ++ [left]))

section Chain

variable {services : WriterServices} {execution : AmendedExecution}
  {allowed : List PackageFile → Prop}
  {done : List WrittenAmendment} {written : WrittenAmendment} {calls : Nat}
  {store : EvidenceStore}

theorem Written.split {front back : List WrittenAmendment}
    (h : Written services execution allowed (front ++ written :: back)) :
    WrittenAfter services execution allowed front written := by
  generalize hwhole : front ++ written :: back = whole at h
  induction h generalizing back with
  | start => simp at hwhole
  | @next done last before after ih =>
    rcases List.eq_nil_or_concat back with rfl | ⟨shorter, final, rfl⟩
    · obtain ⟨rfl, hlast⟩ := List.append_inj' hwhole rfl
      obtain rfl := List.singleton_inj.mp hlast
      exact after
    · rw [List.concat_eq_append, ← List.cons_append, ← List.append_assoc] at hwhole
      exact ih (List.append_inj' hwhole rfl).1

theorem Written.mem (h : Written services execution allowed done) (hmem : written ∈ done) :
    ∃ front back, done = front ++ written :: back ∧
      WrittenAfter services execution allowed front written := by
  obtain ⟨front, back, rfl⟩ := List.append_of_mem hmem
  exact ⟨front, back, rfl, h.split⟩

theorem Written.sequence_le (h : Written services execution allowed done) (hmem : written ∈ done) :
    written.input.sequence ≤ done.length := by
  obtain ⟨front, back, rfl, hafter⟩ := h.mem hmem
  rw [hafter.sequence, List.length_append, List.length_cons]
  omega

end Chain

/-! ## The parent of the next amendment -/

theorem getLast?_insertionSort {α : Type} {r : α → α → Prop} [DecidableRel r] [Std.Total r]
    [IsTrans α r] {items : List α} {last : α} (hmem : last ∈ items)
    (hlast : ∀ item ∈ items, item = last ∨ ¬ r last item) :
    (items.insertionSort r).getLast? = some last := by
  have hsorted := List.pairwise_insertionSort r items
  have hin : last ∈ items.insertionSort r := (List.mem_insertionSort r).mpr hmem
  rcases List.eq_nil_or_concat (items.insertionSort r) with hnil | ⟨front, final, hsplit⟩
  · rw [hnil] at hin
    exact absurd hin List.not_mem_nil
  · rw [List.concat_eq_append] at hsplit
    rw [hsplit] at hsorted hin ⊢
    rw [List.getLast?_append_of_ne_nil _ (List.cons_ne_nil _ _), List.getLast?_singleton]
    rcases List.mem_append.mp hin with hfront | hfinal
    · have hbelow : r last final :=
        (List.pairwise_append.mp hsorted).2.2 last hfront final (List.mem_singleton.mpr rfl)
      have hfinal : final ∈ items := by
        rw [← List.mem_insertionSort r, hsplit]
        exact List.mem_append_right _ (List.mem_singleton.mpr rfl)
      rcases hlast final hfinal with rfl | hnot
      · rfl
      · exact absurd hbelow hnot
    · rw [List.mem_singleton.mp hfinal]

section Parent

variable {services : WriterServices} {execution : AmendedExecution}
  {allowed : List PackageFile → Prop}
  {done : List WrittenAmendment} {written : WrittenAmendment} {area : List StoredAmendment}
  {last : StoredAmendment} {snapshots : List AmendmentSnapshot}

theorem fileAt_of_sameFiles {files stored : List PackageFile} (h : SameFiles files stored)
    (hdistinct : DistinctPaths stored) {file : PackageFile} (hmem : file ∈ stored) :
    fileAt files file.path = some file := by
  cases hfound : fileAt files file.path with
  | none =>
    have hnone := List.find?_eq_none.mp hfound file ((h file).mpr hmem)
    simp at hnone
  | some found =>
    obtain ⟨hfoundMem, hpath⟩ := fileAt_mem hfound
    rw [eq_of_path_eq hdistinct ((h found).mp hfoundMem) hmem hpath]

theorem fileAt_none_of_sameFiles {files stored : List PackageFile} (h : SameFiles files stored)
    {path : String} (hnone : fileAt stored path = none) : fileAt files path = none := by
  apply List.find?_eq_none.mpr
  intro file hmem
  exact List.find?_eq_none.mp hnone file ((h file).mp hmem)

theorem SnapshotsOf.parentIndex_eq (h : SnapshotsOf (area ++ [last]) snapshots)
    (hnames : ((area ++ [last]).map StoredAmendment.name).Nodup)
    (hlast : ∀ amendment ∈ area, codeUnitsLe last.name amendment.name = false) :
    ∃ snapshot ∈ snapshots, SameFiles snapshot.files last.files ∧
      parentIndex snapshots = fileAt snapshot.files amendmentIndexPath := by
  have hin : last.name ∈ snapshots.map AmendmentSnapshot.directory :=
    h.names.mem_iff.mpr (List.mem_map_of_mem (List.mem_append_right _ (List.mem_singleton.mpr rfl)))
  obtain ⟨snapshot, hsnapshot, hname⟩ := List.mem_map.mp hin
  refine ⟨snapshot, hsnapshot, ?_, ?_⟩
  · exact h.files snapshot hsnapshot last (List.mem_append_right _ (List.mem_singleton.mpr rfl))
      hname.symm
  · have : Std.Total fun first second : AmendmentSnapshot =>
        codeUnitsLe first.directory second.directory = true :=
      ⟨fun first second => codeUnitsLe_total _ _⟩
    have : IsTrans AmendmentSnapshot fun first second =>
        codeUnitsLe first.directory second.directory = true :=
      ⟨fun _ _ _ => codeUnitsLe_trans⟩
    have hsorted : (snapshots.insertionSort fun first second =>
        codeUnitsLe first.directory second.directory).getLast? = some snapshot := by
      apply getLast?_insertionSort hsnapshot
      intro item hitem
      have hitemName := h.names.mem_iff.mp (List.mem_map_of_mem hitem)
      obtain ⟨amendment, hamendment, hsame⟩ := List.mem_map.mp hitemName
      rcases List.mem_append.mp hamendment with hfront | hfinal
      · right
        rw [hname, ← hsame, hlast amendment hfront]
        exact Bool.false_ne_true
      · left
        rw [List.mem_singleton.mp hfinal] at hsame
        exact List.inj_on_of_nodup_map (h.names.nodup_iff.mpr hnames) hitem hsnapshot
          (hsame.symm.trans hname.symm)
    unfold parentIndex
    rw [hsorted]
    rfl

theorem Written.name_below (h : Written services execution allowed done) {sequence : Nat} (id : Uuid4)
    (hlater : done.length < sequence) (hbound : sequence < 10000) :
    ∀ amendment ∈ done.map WrittenAmendment.stored,
      codeUnitsLe (amendmentDirectoryName sequence id) amendment.name = false := by
  intro amendment hmem
  obtain ⟨earlier, hearlier, rfl⟩ := List.mem_map.mp hmem
  have hsequence := h.sequence_le hearlier
  exact amendmentDirectoryName_lt (by omega) hbound _ _

theorem WrittenAfter.directory_eq (h : WrittenAfter services execution allowed done written) :
    written.built.directory = amendmentsDirectory execution.identity ++ "/" ++ written.name := by
  rw [h.built.directory, h.identity]
  rfl

theorem WrittenAfter.index_mem (h : WrittenAfter services execution allowed done written) :
    (⟨amendmentIndexPath, services.records.serializeRecordFile written.built.index⟩ : PackageFile) ∈
      written.built.files := by
  rw [h.built.files]
  exact List.mem_append_right _ (List.mem_singleton.mpr rfl)

theorem Written.parentIndex_eq (h : Written services execution allowed done) (hbound : done.length < 10000)
    (hread : SnapshotsOf (done.map WrittenAmendment.stored) snapshots)
    (hnames : ((done.map WrittenAmendment.stored).map StoredAmendment.name).Nodup) :
    (parentIndex snapshots).map (fun file => services.digest file.bytes) =
      done.getLast?.map (WrittenAmendment.indexSha256 services) := by
  cases h with
  | start =>
    have hempty : snapshots = [] := by simpa using hread.names
    rw [hempty]
    rfl
  | @next front last before after =>
    rw [List.map_append] at hread hnames
    rw [List.length_append, List.length_singleton] at hbound
    have hlast : ∀ amendment ∈ front.map WrittenAmendment.stored,
        codeUnitsLe last.stored.name amendment.name = false :=
      before.name_below _ (by rw [after.sequence]; omega) (by rw [after.sequence]; exact hbound)
    obtain ⟨snapshot, -, hsame, hparent⟩ := hread.parentIndex_eq hnames hlast
    have hindex := fileAt_of_sameFiles hsame (built_distinct after.built) after.index_mem
    rw [hparent, hindex]
    simp [WrittenAmendment.indexSha256]

theorem Written.parentIndex_none (h : Written services execution allowed done)
    (hbound : done.length + 1 < 10000) (hopen : LeftOpen done last)
    (hread : SnapshotsOf (done.map WrittenAmendment.stored ++ [last]) snapshots)
    (hnames : ((done.map WrittenAmendment.stored ++ [last]).map StoredAmendment.name).Nodup) :
    parentIndex snapshots = none := by
  obtain ⟨id, hname⟩ := hopen.name
  have hlast : ∀ amendment ∈ done.map WrittenAmendment.stored,
      codeUnitsLe last.name amendment.name = false := by
    rw [hname]
    exact h.name_below id (by omega) hbound
  obtain ⟨snapshot, -, hsame, hparent⟩ := hread.parentIndex_eq hnames hlast
  rw [hparent]
  exact fileAt_none_of_sameFiles hsame hopen.noIndex

end Parent

/-! ## Interrupted and completed calls -/

section Calls

variable {services : WriterServices} {execution : AmendedExecution}
  {allowed : List PackageFile → Prop}
  {done : List WrittenAmendment} {written : WrittenAmendment} {calls : Nat}
  {store : EvidenceStore} {files rest : List PackageFile}

theorem WrittenAfter.no_index (h : WrittenAfter services execution allowed done written)
    (hsplit : written.built.files = files ++ rest) (hne : rest ≠ []) :
    fileAt files amendmentIndexPath = none := by
  rcases List.eq_nil_or_concat rest with hnil | ⟨more, final, rfl⟩
  · exact absurd hnil hne
  · rw [h.built.files, List.concat_eq_append, ← List.append_assoc] at hsplit
    have hpayload := (List.append_inj' hsplit rfl).1
    apply List.find?_eq_none.mpr
    intro file hfile
    have hmem : file ∈ written.input.payload := by
      rw [hpayload]
      exact List.mem_append_left _ hfile
    simpa using (h.built.entryOf file hmem).2.1

/-- However far the files of an amendment are written, the area is one that calls leave behind. -/
theorem WrittenAfter.areaState (h : WrittenAfter services execution allowed done written)
    (hdone : Written services execution allowed done) (hbound : done.length + 1 ≤ calls)
    (hsplit : written.built.files = files ++ rest)
    (hopening : Opening store (amendmentsDirectory execution.identity)
      (done.map WrittenAmendment.stored) written.name files) :
    AreaState services execution allowed calls store := by
  rcases hopening.settle with harea | ⟨-, harea⟩
  · by_cases hrest : rest = []
    · refine .whole (hdone.next h) (by simpa using hbound) ?_
      rw [hrest, List.append_nil] at hsplit
      rw [List.map_append, List.map_singleton, WrittenAmendment.stored, hsplit]
      exact harea
    · refine .interrupted hdone hbound ⟨⟨written.input.amendmentId, ?_⟩, ?_⟩ harea
      · rw [← h.sequence]
        rfl
      · exact h.no_index hsplit hrest
  · exact .whole hdone (by omega) harea

/-- Writing may stop anywhere; a loop that completes has written the whole amendment. -/
theorem writeFiles_safe (h : WrittenAfter services execution allowed done written)
    (hdone : Written services execution allowed done) (hbound : done.length + 1 ≤ calls) (subject : String)
    (hsplit : written.built.files = files ++ rest)
    (hopening : Opening store (amendmentsDirectory execution.identity)
      (done.map WrittenAmendment.stored) written.name files) :
    Safe (fileMachine.answers ()) alone
      (fun _ after => AreaState services execution allowed calls after)
      (fun result after => result = .ok () → Opening after (amendmentsDirectory execution.identity)
        (done.map WrittenAmendment.stored) written.name written.built.files)
      (writeFiles written.built.directory subject rest) store := by
  induction rest generalizing files store with
  | nil =>
    intro after hrel _
    obtain rfl := hrel
    rw [hsplit, List.append_nil]
    exact hopening
  | cons file rest ih =>
    intro before hrel reply after hanswer
    obtain rfl := hrel
    rw [h.directory_eq] at hanswer
    rcases hopening.writeOnce (amendmentDirectoryName_plain _ _) hanswer with
      ⟨rfl, hmore⟩ | ⟨failure, rfl, hsame⟩
    · have hsplit' : written.built.files = files ++ [file] ++ rest := by
        rw [hsplit, List.append_assoc, List.singleton_append]
      exact ⟨h.areaState hdone hbound hsplit' hmore, ih hsplit' hmore⟩
    · refine ⟨h.areaState hdone hbound hsplit hsame, ?_⟩
      intro later _ hok
      cases hok

theorem AreaState.mono {more : Nat} (h : AreaState services execution allowed calls store)
    (hle : calls ≤ more) : AreaState services execution allowed more store := by
  cases h with
  | whole hdone hbound harea => exact .whole hdone (by omega) harea
  | interrupted hdone hbound hopen harea => exact .interrupted hdone (by omega) hopen harea

variable {snapshots : List AmendmentSnapshot}

theorem Written.writtenAfter (h : Written services execution allowed done)
    (hbound : done.length < 10000)
    (hread : SnapshotsOf (done.map WrittenAmendment.stored) snapshots)
    (hnames : ((done.map WrittenAmendment.stored).map StoredAmendment.name).Nodup)
    {write : AmendmentWrite} (hallowed : allowed write.payload) {id : Uuid4} {time : UtcMillis}
    {built : BuiltAmendment}
    (hbuilt : BuiltFrom services.digest services.records
      (nextInput services execution write snapshots id time) built) :
    WrittenAfter services execution allowed done ⟨nextInput services execution write snapshots id time,
      built⟩ := by
  have hlength : snapshots.length = done.length := by
    have hsame := hread.names.length_eq
    simpa using hsame
  refine ⟨hbuilt, rfl, rfl, rfl, ?_, h.parentIndex_eq hbound hread hnames, write.sizes, hallowed⟩
  show snapshots.length + 1 = done.length + 1
  rw [hlength]

theorem Written.not_built (h : Written services execution allowed done)
    (hbound : done.length + 1 < 10000) {left : StoredAmendment} (hopen : LeftOpen done left)
    (hread : SnapshotsOf (done.map WrittenAmendment.stored ++ [left]) snapshots)
    (hnames : ((done.map WrittenAmendment.stored ++ [left]).map StoredAmendment.name).Nodup)
    {write : AmendmentWrite} {id : Uuid4} {time : UtcMillis} {built : BuiltAmendment} :
    ¬ BuiltFrom services.digest services.records
      (nextInput services execution write snapshots id time) built := by
  intro hbuilt
  have hlength : snapshots.length = done.length + 1 := by
    have hsame := hread.names.length_eq
    simpa using hsame
  have hparent : (nextInput services execution write snapshots id
      time).parentAmendmentIndexSha256 = none := by
    simp [nextInput, h.parentIndex_none hbound hopen hread hnames]
  have hsequence : snapshots.length + 1 = 1 := hbuilt.parent.mpr hparent
  omega

structure Returned (services : WriterServices) (execution : AmendedExecution)
    (allowed : List PackageFile → Prop) (done : List WrittenAmendment) (written : WrittenAmendment) (store : EvidenceStore) : Prop where
  before : Written services execution allowed done
  after : WrittenAfter services execution allowed done written
  area : AreaHolds store (amendmentsDirectory execution.identity)
    ((done ++ [written]).map WrittenAmendment.stored)
  rootValid : invalidPathReason (amendmentsDirectory execution.identity) = none

def CallResult (services : WriterServices) (execution : AmendedExecution)
    (allowed : List PackageFile → Prop) (before : EvidenceStore)
    (result : Except (List AmendmentFailure) String) (store : EvidenceStore) : Prop :=
  ∀ directory, result = .ok directory → ∃ done written, directory = written.built.directory ∧
    AreaHolds before (amendmentsDirectory execution.identity) (done.map WrittenAmendment.stored) ∧
    Returned services execution allowed done written store

theorem WrittenAfter.writeBuilt_safe (h : WrittenAfter services execution allowed done written)
    (hdone : Written services execution allowed done) (hbound : done.length + 1 ≤ calls) (subject : String)
    (hvalid : invalidPathReason (amendmentsDirectory execution.identity) = none)
    (hbefore : AreaHolds store (amendmentsDirectory execution.identity)
      (done.map WrittenAmendment.stored))
    (hnew : ∀ amendment ∈ done.map WrittenAmendment.stored, amendment.name ≠ written.name) :
    Safe (fileMachine.answers ()) alone
      (fun _ after => AreaState services execution allowed calls after)
      (CallResult services execution allowed store) (writeBuilt subject (.ok written.built)) store := by
  have hopening := hbefore.opening (amendmentDirectoryName_plain _ _) hnew
  refine Safe.bind (writeFiles_safe h hdone hbound subject rfl hopening) ?_
  intro result after hresult
  cases result with
  | error reasons =>
    intro later _ directory hok
    cases hok
  | ok value =>
    intro later hrel directory hok
    obtain rfl := hrel
    obtain rfl := Except.ok.inj hok
    refine ⟨done, written, rfl, hbefore, hdone, h, ?_, hvalid⟩
    rcases (hresult rfl).settle with harea | ⟨hempty, -⟩
    · rwa [List.map_append]
    · have hmem := h.index_mem
      rw [hempty] at hmem
      exact absurd hmem List.not_mem_nil

theorem list_valid {root : String} (h : SnapshotsFrom store root snapshots) :
    invalidPathReason root = none := by
  by_contra hinvalid
  have hsome : (invalidPathReason root).isSome = true := by
    rw [Option.isSome_iff_ne_none]
    exact hinvalid
  rcases h with ⟨hlist, -⟩ | ⟨entries, hlist, -⟩ <;>
    simp [EvidenceStore.list, hsome] at hlist

theorem Written.name_new (h : Written services execution allowed done) (hbound : done.length + 1 < 10000)
    (id : Uuid4) : ∀ amendment ∈ done.map WrittenAmendment.stored,
      amendment.name ≠ amendmentDirectoryName (done.length + 1) id := by
  intro amendment hmem hsame
  have hbelow := h.name_below id (Nat.lt_add_one _) hbound amendment hmem
  rw [hsame] at hbelow
  have hself := codeUnitsLe_total (amendmentDirectoryName (done.length + 1) id)
    (amendmentDirectoryName (done.length + 1) id)
  rw [hbelow, or_self] at hself
  exact Bool.false_ne_true hself

theorem writeNext_safe (h : AreaState services execution allowed calls store) (hbound : calls + 1 < 10000)
    {write : AmendmentWrite} (hallowed : allowed write.payload) {existing : List AmendmentSnapshot}
    (hfrom : SnapshotsFrom store (amendmentsDirectory execution.identity) existing)
    (id : Uuid4) (time : UtcMillis) :
    Safe (fileMachine.answers ()) alone
      (fun _ after => AreaState services execution allowed (calls + 1) after)
      (CallResult services execution allowed store)
      (writeBuilt write.subject (buildAmendment services.digest services.records
        (nextInput services execution write existing id time))) store := by
  cases hbuild : buildAmendment services.digest services.records
      (nextInput services execution write existing id time) with
  | error reasons =>
    intro later _ directory hok
    cases hok
  | ok built =>
    have hbuilt := buildAmendment_ok hbuild
    cases h with
    | @whole done hdone hcalls harea =>
      have hafter := hdone.writtenAfter (by omega) (harea.snapshotsOf hfrom)
        harea.names hallowed hbuilt
      have hsequence : existing.length + 1 = done.length + 1 := hafter.sequence
      have hnew := hdone.name_new (by omega) id
      rw [← hsequence] at hnew
      exact hafter.writeBuilt_safe hdone (by omega) write.subject (list_valid hfrom) harea hnew
    | interrupted hdone hcalls hopen harea =>
      exact absurd hbuilt (hdone.not_built (by omega) hopen (harea.snapshotsOf hfrom)
        harea.names)

/-- One call on an area that earlier calls left behind: stopped anywhere it leaves such an area,
and when it returns a directory the area consists of whole amendments. -/
theorem writeAmendmentPackage_safe (h : AreaState services execution allowed calls store)
    (hbound : calls + 1 < 10000) {write : AmendmentWrite} (hallowed : allowed write.payload) :
    Safe (fileMachine.answers ()) alone
      (fun before after => after = before ∨ AreaState services execution allowed (calls + 1) after)
      (CallResult services execution allowed store) (writeAmendmentPackage services execution write)
      store := by
  refine Safe.bind ((readAmendmentSnapshots_readsOnly execution.identity).guarantee
    fun _ _ hsame => .inl hsame) ?_
  rintro result after ⟨rfl, hread⟩
  cases result with
  | error failure =>
    intro later _ directory hok
    cases hok
  | ok existing =>
    intro before hrel id after hid
    obtain rfl := hrel
    obtain rfl := answers_nextId hid
    refine ⟨.inl rfl, ?_⟩
    intro before hrel time after htime
    obtain rfl := hrel
    obtain rfl := answers_now htime
    refine ⟨.inl rfl, ?_⟩
    exact (writeNext_safe h hbound hallowed (hread existing rfl) id time).guarantee
      fun _ _ hstate => .inr hstate

end Calls

end RefundStudy.Package
