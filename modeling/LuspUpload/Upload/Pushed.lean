import LuspUpload.Lib.Cut
import LuspUpload.Upload.Service
import Mathlib.Algebra.Ring.Nat
import Mathlib.Data.List.TakeWhile

/-!
# Upload.Pushed — which of the pushed paths give records that the loop hands over

A directory makes `push` throw, so what stands behind it in its batch is never queued; a path that does
not exist is queued as a record without a name, and the notification loop takes that for the sentinel and
leaves.  `handed_eq_wanted_iff` : the named records up to the first nameless one are those of the pushed
files exactly when no file stands behind a cut.
-/

namespace LuspUpload.Upload

open Lib

/-- What a pushed path is. -/
inductive Kind where
  | regular
  | missing
  | directory
  deriving DecidableEq, Repr

/-- A path that is empty counts as missing; `file_size` tells directories from files. -/
def Element.kind (e : Element) : Kind :=
  if e.path = [] ∨ e.probe.pathExists = false then .missing
  else if e.probe.fileSize = none then .directory
  else .regular

/-- The records of the pushed files. -/
def wanted (env : Env) (calls : List (List Element)) : List SyncUploadFileInfo :=
  (calls.flatten.filter (·.kind = .regular)).filterMap (pushFile env)

/-- The elements that get into the queue: each call up to its first directory. -/
def queued (calls : List (List Element)) : List Element := cutEach (·.kind ≠ .directory) calls

/-- No file stands behind a directory in its call or behind a missing path in the queue. -/
def NothingBehind (calls : List (List Element)) : Prop :=
  (∀ call ∈ calls, ∀ e ∈ call.dropWhile (·.kind ≠ .directory), e.kind ≠ .regular) ∧
    ∀ e ∈ (queued calls).dropWhile (·.kind ≠ .missing), e.kind ≠ .regular

instance (calls : List (List Element)) : Decidable (NothingBehind calls) :=
  inferInstanceAs (Decidable (_ ∧ _))

/-- The conversion of a non-empty path is non-empty. -/
def Env.Converts (env : Env) (path : List UInt16) : Prop := path ≠ [] → env.toUtf8FromUtf16LE path ≠ []

/-! ### One path -/

section Element

variable {env : Env} {e : Element}

theorem kind_eq_missing_iff : e.kind = .missing ↔ e.path = [] ∨ e.probe.pathExists = false := by
  unfold Element.kind
  split_ifs with hmissing hsize
  · exact ⟨fun _ => hmissing, fun _ => rfl⟩
  · exact ⟨(nomatch ·), fun h => absurd h hmissing⟩
  · exact ⟨(nomatch ·), fun h => absurd h hmissing⟩

theorem pushFile_missing (h : e.kind = .missing) :
    pushFile env e = some (queuedInfo e.probe (initializeDefaults env e.probe)) := by
  simp only [pushFile, FileInfoHandler.ofPath, if_pos (kind_eq_missing_iff.1 h), Option.map_some]

variable (henv : env.Converts e.path)
include henv

/-- A path that exists gives a record under its name if its size can be read, and an exception if not. -/
theorem pushFile_present (h : e.kind ≠ .missing) :
    (pushFile env e).map (·.sFileFullNameValue) = e.probe.fileSize.map fun _ => e.path := by
  rw [Ne, kind_eq_missing_iff] at h
  have hpath : e.path ≠ [] := fun hp => h (.inl hp)
  have hexists : ¬ e.probe.pathExists = false := fun hp => h (.inr hp)
  simp only [pushFile, FileInfoHandler.ofPath, if_neg h, updateFileInfoFromFileSystem,
    setFileInfoPath, if_neg (henv hpath), if_neg hexists, Option.map_map]
  rfl

/-- The construction throws for directories and only for them. -/
theorem pushFile_eq_none_iff : pushFile env e = none ↔ e.kind = .directory := by
  by_cases hm : e.kind = .missing
  · simp [pushFile_missing hm, hm]
  · have hnone : pushFile env e = none ↔ e.probe.fileSize = none := by
      rw [← Option.map_eq_none_iff, pushFile_present henv hm, Option.map_eq_none_iff]
    rw [hnone]
    rw [kind_eq_missing_iff] at hm
    unfold Element.kind
    rw [if_neg hm]
    split_ifs with hsize
    · exact ⟨fun _ => rfl, fun _ => hsize⟩
    · exact ⟨fun h => absurd h hsize, (nomatch ·)⟩

/-- The record that is queued has a name unless the path is missing. -/
theorem pushFile_name {info : SyncUploadFileInfo} (h : pushFile env e = some info) :
    info.sFileFullNameValue = [] ↔ e.kind = .missing := by
  by_cases hm : e.kind = .missing
  · rw [pushFile_missing hm] at h
    cases h
    exact ⟨fun _ => hm, fun _ => rfl⟩
  · have hname := pushFile_present henv hm
    rw [h] at hname
    obtain ⟨-, -, hname⟩ := Option.map_eq_some_iff.1 hname.symm
    have hpath : e.path ≠ [] := fun hp => hm (kind_eq_missing_iff.2 (.inl hp))
    exact ⟨fun hp => absurd (hname.trans hp) hpath, fun hp => absurd hp hm⟩

end Element

/-! ### Sample paths -/

/-- A file of five bytes. -/
def fileOf (name : List UInt16) : Element := ⟨name, ⟨true, some 5, none, [], [], 0, 0⟩⟩

/-- A directory. -/
def directoryOf (name : List UInt16) : Element := ⟨name, ⟨true, none, none, [], [], 0, 0⟩⟩

/-- A path at which there is nothing. -/
def nothingAt (name : List UInt16) : Element := ⟨name, ⟨false, none, none, [], [], 0, 0⟩⟩

theorem asciiEnv_converts (path : List UInt16) : asciiEnv.Converts path := by
  intro h
  simpa [asciiEnv] using h

/-! ### The records -/

/-- What the calls put into the queue. -/
def queuedInfos (env : Env) (calls : List (List Element)) : List SyncUploadFileInfo :=
  (queued calls).filterMap (pushFile env)

/-- What the loop hands over of a list of records: those up to the first without a name. -/
def handed (infos : List SyncUploadFileInfo) : List SyncUploadFileInfo :=
  infos.takeWhile (·.sFileFullNameValue ≠ [])

theorem handed_cons (info : SyncUploadFileInfo) (infos : List SyncUploadFileInfo) :
    handed (info :: infos) = if info.sFileFullNameValue = [] then [] else info :: handed infos := by
  rw [handed, List.takeWhile_cons]
  by_cases h : info.sFileFullNameValue = [] <;> simp [h, handed]

/-! ### Cuts -/

section Cuts

variable {env : Env} {calls : List (List Element)}

/-- No directory gets into the queue. -/
theorem kind_of_mem_queued {e : Element} (h : e ∈ queued calls) : e.kind ≠ .directory := by
  obtain ⟨call, -, he⟩ := List.mem_flatMap.1 h
  simpa using List.mem_takeWhile_imp he

/-- What the loop gets to are files. -/
theorem filter_takeWhile_queued :
    ((queued calls).takeWhile (·.kind ≠ .missing)).filter (·.kind = .regular) =
      (queued calls).takeWhile (·.kind ≠ .missing) := by
  rw [List.filter_eq_self]
  intro e he
  have hmissing : e.kind ≠ .missing := by simpa using List.mem_takeWhile_imp he
  have hdir := kind_of_mem_queued ((List.takeWhile_sublist _).subset he)
  rcases hk : e.kind with _ | _ | _
  · rfl
  · exact absurd hk hmissing
  · exact absurd hk hdir

theorem takeWhile_queued_eq_iff :
    (queued calls).takeWhile (·.kind ≠ .missing) = calls.flatten.filter (·.kind = .regular) ↔
      NothingBehind calls := by
  rw [← filter_takeWhile_queued, queued, filter_takeWhile_cutEach_eq_iff]
  simp [NothingBehind, queued]

/-- A path whose construction throws takes the rest of its call with it. -/
theorem queuedInfos_throws {e : Element} {call : List Element} (henv : env.Converts e.path)
    (hpush : pushFile env e = none) : queuedInfos env ((e :: call) :: calls) = queuedInfos env calls := by
  have hdir : e.kind = .directory := (pushFile_eq_none_iff henv).1 hpush
  simp [queuedInfos, queued, cutEach_cons, hdir]

theorem queuedInfos_pushed {e : Element} {call : List Element} {info : SyncUploadFileInfo}
    (henv : env.Converts e.path) (hpush : pushFile env e = some info) :
    queuedInfos env ((e :: call) :: calls) = info :: queuedInfos env (call :: calls) := by
  have hdir : e.kind ≠ .directory := by
    rw [Ne, ← pushFile_eq_none_iff henv, hpush]
    exact Option.some_ne_none _
  simp [queuedInfos, queued, cutEach_cons, hdir, hpush]

theorem queuedInfos_returned : queuedInfos env ([] :: calls) = queuedInfos env calls := rfl

@[simp] theorem queuedInfos_nil : queuedInfos env [] = [] := rfl

/-- The loop stops at the record of the first missing path. -/
theorem handed_filterMap {l : List Element} (henv : ∀ e ∈ l, env.Converts e.path)
    (hl : ∀ e ∈ l, e.kind ≠ .directory) :
    handed (l.filterMap (pushFile env)) =
      (l.takeWhile (·.kind ≠ .missing)).filterMap (pushFile env) := by
  induction l with
  | nil => rfl
  | cons e l ih =>
    obtain ⟨he, hl⟩ := List.forall_mem_cons.1 hl
    obtain ⟨henv, htail⟩ := List.forall_mem_cons.1 henv
    rcases hpush : pushFile env e with _ | info
    · exact absurd ((pushFile_eq_none_iff henv).1 hpush) he
    · rw [List.filterMap_cons_some hpush, handed_cons, ih htail hl, List.takeWhile_cons]
      by_cases hm : e.kind = .missing
      · simp [hm, (pushFile_name henv hpush).2 hm]
      · have hname : info.sFileFullNameValue ≠ [] := fun h => hm ((pushFile_name henv hpush).1 h)
        simp [hm, hname, hpush]

theorem length_filterMap_pushFile {l : List Element} (henv : ∀ e ∈ l, env.Converts e.path)
    (hl : ∀ e ∈ l, e.kind ≠ .directory) : (l.filterMap (pushFile env)).length = l.length := by
  rw [List.length_filterMap_eq_countP, List.countP_eq_length]
  intro e he
  rw [Option.isSome_iff_ne_none, Ne, pushFile_eq_none_iff (henv e he)]
  exact hl e he

/-- What the loop gets to is a part of the pushed files. -/
theorem takeWhile_queued_sublist : ((queued calls).takeWhile (·.kind ≠ .missing)).Sublist
    (calls.flatten.filter (·.kind = .regular)) := by
  rw [← filter_takeWhile_queued]
  exact ((List.takeWhile_sublist _).trans (cutEach_sublist _)).filter _

variable (henv : ∀ e ∈ calls.flatten, env.Converts e.path)
include henv

theorem handed_queuedInfos : handed (queuedInfos env calls) =
    ((queued calls).takeWhile (·.kind ≠ .missing)).filterMap (pushFile env) :=
  handed_filterMap (fun e he => henv e ((cutEach_sublist _).subset he)) fun _ => kind_of_mem_queued

/-- No more is handed over than what is wanted. -/
theorem handed_sublist_wanted : (handed (queuedInfos env calls)).Sublist (wanted env calls) := by
  rw [handed_queuedInfos henv]
  exact takeWhile_queued_sublist.filterMap _

/-- What is handed over is what is wanted exactly when nothing is lost behind a cut. -/
theorem handed_eq_wanted_iff :
    handed (queuedInfos env calls) = wanted env calls ↔ NothingBehind calls := by
  rw [handed_queuedInfos henv, wanted, ← takeWhile_queued_eq_iff]
  constructor
  · intro h
    -- every element gives one record, so the records are as many as the elements
    have hlen := congrArg List.length h
    rw [length_filterMap_pushFile, length_filterMap_pushFile] at hlen
    · exact takeWhile_queued_sublist.eq_of_length hlen
    · intro e he
      exact henv e (List.mem_filter.1 he).1
    · intro e he
      have hk : e.kind = .regular := by simpa using (List.mem_filter.1 he).2
      rw [hk]
      exact nofun
    · intro e he
      exact henv e (List.mem_filter.1 (takeWhile_queued_sublist.subset he)).1
    · intro e he
      exact kind_of_mem_queued ((List.takeWhile_sublist _).subset he)
  · intro h
    rw [h]

end Cuts

end LuspUpload.Upload
