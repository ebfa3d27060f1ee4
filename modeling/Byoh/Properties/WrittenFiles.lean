import Byoh.Model.FileWriter

/-!
# The files that a bootstrap script leaves

`write_files` is meant as a sequence of assignments: an entry sets the content of its file, or appends
to it. `reference` states that meaning on the contents of a file system.

`FileWriter.WriteToFile` opens a file for writing without truncating it, so an entry that does not
append writes over the beginning of what is there and leaves the rest (`overwritten`). A file whose
content is not the one meant is longer than that, and stays longer until an entry covers it
(`AgreeOrLonger`). So the content of a file is that of the reference exactly if its size is, and sizes
are folded from the entries (`FitsAt`, `writeFiles_reference`). A shorter entry keeps the tail of a
longer file (`tail_survives`).

The proof has two levels. `ScriptExecutor` is verified against a contract of its interfaces
(`Contract`), and `interfaces_keep_contract` shows that the file writer keeps the contract, for every
outcome of its system calls.
-/

set_option autoImplicit false

namespace Byoh.Properties

open Byoh.Foundation Byoh.Model.CloudInit
open Byoh.Model (Err)

/-! ## File systems -/

/-- Contents by place. -/
abbrev Contents := String → Option Bytes

section FileSystems

variable {fs fs' fs'' : FileSystem}

/-- Names lead to the same places, and the contents there are the same. -/
structure SameFiles (fs fs' : FileSystem) : Prop where
  place : fs'.place = fs.place
  content : fs'.contentAt = fs.contentAt

theorem SameFiles.refl (fs : FileSystem) : SameFiles fs fs := ⟨rfl, rfl⟩

theorem SameFiles.trans (h : SameFiles fs fs') (h' : SameFiles fs' fs'') : SameFiles fs fs'' :=
  ⟨h'.place.trans h.place, h'.content.trans h.content⟩

theorem nodes_setNode (fs : FileSystem) (p : String) (node : Node) :
    (fs.setNode p node).nodes = Function.update fs.nodes p (some node) := rfl

theorem contentAt_setNode (fs : FileSystem) (p : String) (data : FileData) :
    (fs.setNode p (.file data)).contentAt = Function.update fs.contentAt p (some data.content) := by
  funext q
  rw [FileSystem.contentAt, nodes_setNode]
  by_cases hq : q = p
  · rw [hq, Function.update_self, Function.update_self]
  · rw [Function.update_of_ne hq, Function.update_of_ne hq]
    rfl

theorem contentAt_updateFile {f : FileData → FileData} {g : Bytes → Bytes}
    (hf : ∀ data, (f data).content = g data.content) (fs : FileSystem) (p : String) :
    (fs.updateFile p f).contentAt = Function.update fs.contentAt p ((fs.contentAt p).map g) := by
  rw [FileSystem.updateFile]
  split
  · rename_i data hdata
    rw [contentAt_setNode, hf, FileSystem.contentAt, hdata]
    rfl
  · rename_i hnode
    have hnone : fs.contentAt p = none := by
      rw [FileSystem.contentAt]
      split
      · rename_i data hdata
        exact absurd hdata (hnode data)
      · rfl
    rw [hnone, Option.map_none, ← hnone, Function.update_eq_self]

theorem place_updateFile (fs : FileSystem) (p : String) (f : FileData → FileData) :
    (fs.updateFile p f).place = fs.place := by
  rw [FileSystem.updateFile]
  split <;> rfl

theorem contentAt_writeString {f : File} {old : Bytes} (hold : fs.contentAt f.place = some old)
    (s : Bytes) : (fs.writeString f s).contentAt =
      Function.update fs.contentAt f.place (some (FileSystem.overwritten f.append old s)) := by
  rw [FileSystem.writeString,
    contentAt_updateFile (g := fun old => FileSystem.overwritten f.append old s) (fun _ => rfl), hold,
    Option.map_some]

/-- A change of the mode or of the owner. -/
theorem keeps_updateFile {f : FileData → FileData} (hf : ∀ data, (f data).content = data.content)
    (fs : FileSystem) (p : String) : SameFiles fs (fs.updateFile p f) := by
  refine ⟨place_updateFile fs p f, ?_⟩
  rw [contentAt_updateFile (g := id) hf, Option.map_id, id, Function.update_eq_self]

theorem keeps_mkdir (fs : FileSystem) (perm : Nat) (name : String) :
    SameFiles fs (fs.mkdir perm name) := by
  rw [FileSystem.mkdir]
  split
  · rename_i hnone
    refine ⟨rfl, ?_⟩
    funext q
    rw [FileSystem.contentAt, nodes_setNode]
    by_cases hq : q = fs.place name
    · rw [hq, Function.update_self, FileSystem.contentAt, hnone]
    · rw [Function.update_of_ne hq]
      rfl
  · exact .refl fs

theorem keeps_mkdirs (perm : Nat) (names : List String) (fs : FileSystem) :
    SameFiles fs (names.foldl (·.mkdir perm) fs) := by
  induction names generalizing fs with
  | nil => exact .refl fs
  | cons name names ih => exact (keeps_mkdir fs perm name).trans (ih _)

end FileSystems

/-! ## The contract of the interfaces -/

/-- The contents after the file writer has written a file. -/
def written (place : String → String) (contents : Contents) (file : Files) : Contents :=
  Function.update contents (place file.path) (some (FileSystem.overwritten file.append
    ((contents (place file.path)).getD []) file.content))

/-- What `Execute` can rely on. -/
def Contract (host : Host) : (c : Call) → FileSystem → Resp c → FileSystem → Prop
  | .mkdirIfNotExists _, fs, _, fs' => SameFiles fs fs'
  | .parseTemplate content, fs, r, fs' =>
      SameFiles fs fs' ∧ ∀ content', r = .ok content' → host.expand content = .ok content'
  | .writeToFile file, fs, err, fs' => fs'.place = fs.place ∧
      (err = none → fs'.contentAt = written fs.place fs.contentAt file)
  | .runCmd _, _, _, _ => True

section FileWriter

variable {host : Host} {fs fs' : FileSystem} {x : WriterM Unit}

/-- All runs of a function of the file writer. -/
abbrev Writes (host : Host) (x : WriterM Unit) (fs : FileSystem)
    (Q : Exit Err Unit → FileSystem → Prop) : Prop :=
  GoM.Ensures host.exec (fun _ => True) x () fs fun e _ fs' => Q e fs'

/-- The error of the last call is returned. -/
theorem check_ensures {err : Option Err} {Q : Exit Err Unit → FileSystem → Prop}
    (h : ∀ e, Q e fs) : Writes host (FileWriter.check err) fs Q := by
  cases err with
  | none => exact .pure (h _)
  | some e => exact .throw (h _)

theorem failOr_keeps (o : SysOutcome) (h : SameFiles fs fs') :
    SameFiles fs (failOr o fs fs').2 := by
  rw [failOr]
  cases o.err with
  | some e => exact .refl fs
  | none => exact h

/-- A change of the mode or of the owner, as a call that may fail. -/
theorem failOr_updateFile_keeps {f : FileData → FileData}
    (hf : ∀ data, (f data).content = data.content) (o : SysOutcome) (p : String) :
    SameFiles fs (failOr o fs (fs.updateFile p f)).2 :=
  failOr_keeps o (keeps_updateFile hf fs p)

theorem exec_mkdirAll_keeps (o : SysOutcome) (path : String) (perm : Nat) :
    SameFiles fs (host.exec o (.mkdirAll path perm) fs).2 := by
  rw [Host.exec]
  cases o.err with
  | some e => exact keeps_mkdirs perm _ fs
  | none =>
    change SameFiles fs (fs.mkdirAll path perm).2
    rw [FileSystem.mkdirAll]
    split
    · exact .refl fs
    · exact keeps_mkdirs perm _ fs

theorem exec_stat (o : SysOutcome) (name : String) : (host.exec o (.stat name) fs).2 = fs := by
  rw [Host.exec]
  split <;> rfl

theorem mkdirIfNotExists_keeps (dirName : String) :
    Writes host (FileWriter.mkdirIfNotExists dirName) fs fun _ fs' => SameFiles fs fs' := by
  refine .call_bind trivial fun o _ => ?_
  rw [exec_stat]
  split
  · exact .pure (.refl fs)
  · refine .call_bind trivial fun o _ => ?_
    exact check_ensures fun _ => exec_mkdirAll_keeps o _ _
  · exact .throw (.refl fs)

theorem setPermissions_keeps (file : Files) (f : File) :
    Writes host (FileWriter.setPermissions file f) fs fun _ fs' => SameFiles fs fs' := by
  rw [FileWriter.setPermissions, FileWriter.parseUint]
  cases Text.parseUint32 file.permissions 8 with
  | none => exact .throw (.refl fs)
  | some mode =>
    refine .call_bind trivial fun o _ => ?_
    exact check_ensures fun _ =>
      failOr_updateFile_keeps (f := fun data => { data with mode := syscallMode mode }) (fun _ => rfl) o _

theorem setOwner_keeps (file : Files) (f : File) :
    Writes host (FileWriter.setOwner file f) fs fun _ fs' => SameFiles fs fs' := by
  rw [FileWriter.setOwner]
  split
  · rename_i username group _
    refine .call_bind trivial fun o _ => ?_
    have hlookup : (host.exec o (.lookup username) fs).2 = fs := by
      rw [Host.exec]
      split <;> rfl
    rw [hlookup]
    split
    · exact .throw (.refl fs)
    · rename_i userInfo _
      rw [FileWriter.parseUint, FileWriter.parseUint]
      cases Text.parseUint32 userInfo.uid 10 with
      | none => exact .throw (.refl fs)
      | some uid =>
        cases Text.parseUint32 userInfo.gid 10 with
        | none => exact .throw (.refl fs)
        | some gid =>
          refine .call_bind trivial fun o _ => ?_
          exact check_ensures fun _ =>
            failOr_updateFile_keeps (f := fun data => { data with owner := (uid, gid) }) (fun _ => rfl) o _
  · exact .throw (.refl fs)

theorem keeps_bind {y : Unit → WriterM Unit} (hx : Writes host x fs fun _ fs' => SameFiles fs fs')
    (hy : ∀ fs, Writes host (y ()) fs fun _ fs' => SameFiles fs fs') :
    Writes host (x >>= y) fs fun _ fs' => SameFiles fs fs' := by
  refine .bind (hx.mono ?_)
  intro e _ fs' h
  cases e with
  | ok => exact (hy fs').mono fun _ _ _ h' => h.trans h'
  | err e => exact h
  | panic msg => exact h

theorem when_keeps {c : Bool} (hx : Writes host x fs fun _ fs' => SameFiles fs fs') :
    Writes host (GoM.when c x) fs fun _ fs' => SameFiles fs fs' := by
  cases c with
  | true => exact hx
  | false => exact .pure (.refl fs)

/-- Nothing after the write changes a content. -/
theorem finish_keeps (file : Files) (f : File) :
    Writes host (do
      GoM.when (file.permissions ≠ "") (FileWriter.setPermissions file f)
      GoM.when (file.owner ≠ "") (FileWriter.setOwner file f)
      let err ← GoM.lift (Prog.perform (.close f))
      FileWriter.check err) fs fun _ fs' => SameFiles fs fs' := by
  refine keeps_bind (when_keeps (setPermissions_keeps file f)) fun _ => ?_
  refine keeps_bind (when_keeps (setOwner_keeps file f)) fun fs => ?_
  refine .call_bind trivial fun o _ => ?_
  exact check_ensures fun _ => .refl fs

theorem writeOpened_ensures (file : Files) {f : File} {old : Bytes}
    (hold : fs.contentAt f.place = some old) :
    Writes host (FileWriter.writeOpened file f) fs fun e fs' => fs'.place = fs.place ∧
      (e = .ok () → fs'.contentAt = Function.update fs.contentAt f.place
        (some (FileSystem.overwritten f.append old file.content))) := by
  refine .call_bind trivial fun o _ => ?_
  rw [Host.exec]
  cases o.err with
  | some e => exact .throw ⟨place_updateFile _ _ _, nofun⟩
  | none =>
    exact (finish_keeps file f).mono fun e _ fs' h =>
      ⟨h.place.trans (place_updateFile _ _ _),
        fun _ => h.content.trans (contentAt_writeString hold file.content)⟩

theorem append_mem_openFlags (file : Files) :
    decide (OpenFlag.append ∈ FileWriter.openFlags file) = file.append := by
  rw [FileWriter.openFlags]
  cases file.append <;> decide

theorem trunc_not_mem_openFlags (file : Files) : OpenFlag.trunc ∉ FileWriter.openFlags file := by
  rw [FileWriter.openFlags]
  cases file.append <;> decide

/-- The file is opened with its old content, which is empty for a new file. -/
theorem openFile_opens (file : Files) (perm : Nat) {f : File}
    (h : fs.openFile file.path (FileWriter.openFlags file) perm = (.ok f, fs')) :
    f = ⟨fs.place file.path, file.append⟩ ∧ fs'.place = fs.place ∧
      fs'.contentAt = Function.update fs.contentAt (fs.place file.path)
        (some ((fs.contentAt (fs.place file.path)).getD [])) := by
  rw [FileSystem.openFile, append_mem_openFlags] at h
  cases hnode : fs.nodes (fs.place file.path) with
  | none =>
    rw [hnode] at h
    rw [if_pos (show OpenFlag.create ∈ FileWriter.openFlags file from by simp [FileWriter.openFlags])]
      at h
    cases h
    refine ⟨rfl, rfl, ?_⟩
    rw [contentAt_setNode, FileSystem.contentAt, hnode]
    rfl
  | some node =>
    rw [hnode] at h
    cases node with
    | directory mode => cases h
    | file data =>
      dsimp only at h
      rw [if_neg (trunc_not_mem_openFlags file)] at h
      cases h
      refine ⟨rfl, rfl, ?_⟩
      have hcontent : fs.contentAt (fs.place file.path) = some data.content := by
        rw [FileSystem.contentAt, hnode]
      rw [hcontent, Option.getD_some, ← hcontent, Function.update_eq_self]

theorem openFile_fails (file : Files) (perm : Nat) {e : Err}
    (h : fs.openFile file.path (FileWriter.openFlags file) perm = (.error e, fs')) : fs' = fs := by
  rw [FileSystem.openFile] at h
  split at h
  · split at h <;> cases h
    rfl
  · cases h
    rfl
  · split at h <;> cases h

theorem writeToFile_ensures (file : Files) :
    Writes host (FileWriter.writeToFile file) fs fun e fs' => fs'.place = fs.place ∧
      (e = .ok () → fs'.contentAt = written fs.place fs.contentAt file) := by
  refine .call_bind trivial fun o _ => ?_
  rw [exec_stat]
  refine .call_bind trivial fun o' _ => ?_
  generalize FileWriter.initPermission _ = perm
  generalize hopen : host.exec o' (.openFile file.path (FileWriter.openFlags file) perm) fs = opened
  obtain ⟨r, fs'⟩ := opened
  rw [Host.exec] at hopen
  cases herr : o'.err with
  | some e =>
    rw [herr] at hopen
    cases hopen
    exact .throw ⟨rfl, nofun⟩
  | none =>
    rw [herr] at hopen
    cases r with
    | error e =>
      rw [openFile_fails file perm hopen]
      exact .throw ⟨rfl, nofun⟩
    | ok f =>
      obtain ⟨rfl, hplace, hcontent⟩ := openFile_opens file perm hopen
      have hold : fs'.contentAt (fs.place file.path) =
          some ((fs.contentAt (fs.place file.path)).getD []) := by
        rw [hcontent, Function.update_self]
      refine (writeOpened_ensures file hold).mono fun e _ fs'' h => ⟨h.1.trans hplace, ?_⟩
      intro he
      rw [h.2 he, hcontent, Function.update_idem]
      rfl

theorem returned_ensures {Q : Option Err → FileSystem → Prop}
    (h : Writes host x fs fun e fs' => ∀ err, (err = none → e = .ok ()) → Q err fs') :
    Prog.Ensures host.exec (fun _ => True) (returned x) fs Q := by
  refine .bind (Prog.Ensures.mono h ?_)
  rintro ⟨e, _⟩ fs' hQ
  cases e with
  | ok => exact .ret (hQ none fun _ => rfl)
  | err e => exact .ret (hQ (some e) nofun)
  | panic msg => exact .ret (hQ (some (.text msg)) nofun)

/-- The file writer, the template parser and the command runner keep the contract. -/
theorem interfaces_keep_contract (c : Call) (fs : FileSystem) :
    Prog.Ensures host.exec (fun _ => True) (interfaces c) fs fun r fs' =>
      Contract host c fs r fs' := by
  cases c with
  | mkdirIfNotExists dirName =>
    exact returned_ensures ((mkdirIfNotExists_keeps dirName).mono fun _ _ _ h _ _ => h)
  | writeToFile file =>
    exact returned_ensures ((writeToFile_ensures file).mono fun _ _ _ h _ herr =>
      ⟨h.1, fun hnone => h.2 (herr hnone)⟩)
  | runCmd cmd => exact .call trivial fun _ _ => .ret trivial
  | parseTemplate content =>
    refine .call trivial fun o _ => .ret ?_
    rw [Host.exec]
    cases o.err with
    | some e => exact ⟨.refl fs, nofun⟩
    | none => exact ⟨.refl fs, fun _ h => h⟩

end FileWriter

/-! ## The meaning of write_files -/

section Reference

variable (se : ScriptExecutor) (host : Host) (place : String → String) {file : Files}
  {content : Bytes} {p : String} {contents' : Contents}

/-- The decoded and expanded content of a file. -/
def finalContent (file : Files) : Except Err Bytes :=
  match decoded se file with
  | .ok content => host.expand content
  | .error e => .error e

/-- The meaning of an entry: it sets the content of its file or appends to it. -/
def reference (contents : Contents) (file : Files) : Contents :=
  match finalContent se host file with
  | .ok content => Function.update contents (place file.path) (some
      (if file.append then (contents (place file.path)).getD [] ++ content else content))
  | .error _ => contents

/-- The contents that a list of entries leaves. -/
def referenceAll (contents : Contents) (files : List Files) : Contents :=
  files.foldl (reference se host place) contents

/-- What the file writer makes of an entry. -/
def leaves (contents : Contents) (file : Files) : Contents :=
  match finalContent se host file with
  | .ok content => written place contents { file with content := content }
  | .error _ => contents

/-- The contents that the file writer leaves of a list of entries. -/
def leavesAll (contents : Contents) (files : List Files) : Contents :=
  files.foldl (leaves se host place) contents

/-- The number of bytes at a place. -/
def size (contents : Contents) (p : String) : Nat := ((contents p).getD []).length

/-- The number of bytes at the place `p` after an entry; `set` gives it for one that does not append,
from the number before and the number of bytes that are written. -/
def sizeAfter (set : Nat → Nat → Nat) (p : String) (n : Nat) (file : Files) : Nat :=
  match finalContent se host file with
  | .ok content =>
      if place file.path ≠ p then n
      else if file.append then n + content.length
      else set n content.length
  | .error _ => n

/-- The place `p` has as many bytes after the entries, when those that do not append keep the tail of
what they find, as when they do not keep it. -/
def FitsAt (contents : Contents) (files : List Files) (p : String) : Prop :=
  files.foldl (sizeAfter se host place max p) (size contents p) =
    files.foldl (sizeAfter se host place (fun _ m => m) p) (size contents p)

instance (contents : Contents) (files : List Files) (p : String) :
    Decidable (FitsAt se host place contents files p) :=
  inferInstanceAs (Decidable (_ = _))

/-- The first entry for a place does not append. -/
def SetFirst (p : String) : List Files → Prop
  | [] => False
  | file :: files => if place file.path = p then file.append = false else SetFirst p files

variable {se host place} {contents : Contents}

theorem referenceAll_cons (contents : Contents) (file : Files) (files : List Files) :
    referenceAll se host place contents (file :: files) =
      referenceAll se host place (reference se host place contents file) files := by
  rw [referenceAll, List.foldl_cons, referenceAll]

theorem reference_ok (hcontent : finalContent se host file = .ok content) :
    reference se host place contents file = Function.update contents (place file.path) (some
      (if file.append then (contents (place file.path)).getD [] ++ content else content)) := by
  rw [reference, hcontent]

theorem leaves_ok (hcontent : finalContent se host file = .ok content) :
    leaves se host place contents file = written place contents { file with content := content } := by
  rw [leaves, hcontent]

/-- The size after an entry, from what an entry that does not append makes of the size. -/
theorem size_update {new : Bytes} {set : Nat → Nat → Nat}
    (hcontent : finalContent se host file = .ok content)
    (hnew : new.length = if file.append then size contents (place file.path) + content.length
      else set (size contents (place file.path)) content.length) :
    size (Function.update contents (place file.path) (some new)) p =
      sizeAfter se host place set p (size contents p) file := by
  rw [sizeAfter, hcontent]
  dsimp only
  by_cases hp : place file.path = p
  · subst hp
    rw [size, Function.update_self, Option.getD_some, hnew, if_neg (not_not_intro rfl)]
  · rw [if_pos hp, size, Function.update_of_ne (Ne.symm hp), size]

theorem size_reference (file : Files) (p : String) : size (reference se host place contents file) p =
    sizeAfter se host place (fun _ m => m) p (size contents p) file := by
  cases hcontent : finalContent se host file with
  | error e => rw [reference, sizeAfter, hcontent]
  | ok content =>
    rw [reference_ok hcontent]
    refine size_update hcontent ?_
    cases file.append with
    | true => simp only [if_true, List.length_append, size]
    | false => rfl

theorem size_leaves (file : Files) (p : String) : size (leaves se host place contents file) p =
    sizeAfter se host place max p (size contents p) file := by
  cases hcontent : finalContent se host file with
  | error e => rw [leaves, sizeAfter, hcontent]
  | ok content =>
    rw [leaves_ok hcontent]
    show size (Function.update contents (place file.path) (some (FileSystem.overwritten file.append
      ((contents (place file.path)).getD []) content))) p = _
    refine size_update hcontent ?_
    cases file.append with
    | true => simp only [FileSystem.overwritten, if_true, List.length_append, size]
    | false =>
      simp only [FileSystem.overwritten, Bool.false_eq_true, if_false, List.length_append,
        List.length_drop, size]
      omega

theorem size_referenceAll (files : List Files) (p : String) :
    size (referenceAll se host place contents files) p =
      files.foldl (sizeAfter se host place (fun _ m => m) p) (size contents p) := by
  induction files generalizing contents with
  | nil => rfl
  | cons file files ih => rw [referenceAll_cons, ih, size_reference, List.foldl_cons]

theorem leavesAll_cons (contents : Contents) (file : Files) (files : List Files) :
    leavesAll se host place contents (file :: files) =
      leavesAll se host place (leaves se host place contents file) files := by
  rw [leavesAll, List.foldl_cons, leavesAll]

theorem size_leavesAll (files : List Files) (p : String) :
    size (leavesAll se host place contents files) p =
      files.foldl (sizeAfter se host place max p) (size contents p) := by
  induction files generalizing contents with
  | nil => rfl
  | cons file files ih => rw [leavesAll_cons, ih, size_leaves, List.foldl_cons]

/-- The first contents agree with the second at the place `p`, or they are longer there. -/
def AgreeOrLonger (p : String) (contents contents' : Contents) : Prop :=
  contents p = contents' p ∨ size contents' p < size contents p

/-- One entry: what has too many bytes gets the right content only from an entry that covers it. -/
theorem AgreeOrLonger.step (h : AgreeOrLonger p contents contents') (file : Files) :
    AgreeOrLonger p (leaves se host place contents file) (reference se host place contents' file) := by
  cases hcontent : finalContent se host file with
  | error e =>
    rw [leaves, reference, hcontent]
    exact h
  | ok content =>
    by_cases hp : place file.path = p
    · subst hp
      cases happend : file.append with
      | true =>
        rcases h with heq | hlt
        · left
          rw [leaves_ok hcontent, reference_ok hcontent, written, Function.update_self,
            Function.update_self, heq, happend]
          rfl
        · right
          simp only [size_leaves, size_reference, sizeAfter, hcontent, happend, ne_eq,
            not_true_eq_false, if_false, if_true]
          omega
      | false =>
        by_cases hcovers : size contents (place file.path) ≤ content.length
        · left
          rw [leaves_ok hcontent, reference_ok hcontent, written, Function.update_self,
            Function.update_self, happend, FileSystem.overwritten, List.drop_eq_nil_of_le hcovers,
            List.append_nil]
          rfl
        · right
          simp only [size_leaves, size_reference, sizeAfter, hcontent, happend, ne_eq,
            not_true_eq_false, Bool.false_eq_true, if_false]
          omega
    · -- an entry for another place
      have hne : p ≠ place file.path := Ne.symm hp
      unfold AgreeOrLonger
      rw [size_leaves, size_reference, sizeAfter, sizeAfter, hcontent]
      dsimp only
      rw [if_pos hp, if_pos hp, leaves_ok hcontent, reference_ok hcontent, written,
        Function.update_of_ne hne, Function.update_of_ne hne]
      exact h

theorem AgreeOrLonger.run (h : AgreeOrLonger p contents contents') (files : List Files) :
    AgreeOrLonger p (leavesAll se host place contents files)
      (referenceAll se host place contents' files) := by
  induction files generalizing contents contents' with
  | nil => exact h
  | cons file files ih =>
    rw [leavesAll_cons, referenceAll_cons]
    exact ih (h.step file)

/-- The file writer leaves the content that the entries mean exactly where it fits. -/
theorem leavesAll_eq_iff (files : List Files) (p : String) :
    leavesAll se host place contents files p = referenceAll se host place contents files p ↔
      FitsAt se host place contents files p := by
  rw [FitsAt, ← size_leavesAll, ← size_referenceAll]
  constructor
  · intro heq
    rw [size, heq, size]
  · intro hsize
    have hrun : AgreeOrLonger p (leavesAll se host place contents files)
        (referenceAll se host place contents files) := AgreeOrLonger.run (.inl rfl) files
    rcases hrun with heq | hlt
    · exact heq
    · exact absurd hsize (Nat.ne_of_gt hlt)

/-- The content of a place depends only on what the place held. -/
theorem reference_congr (h : contents p = contents' p) (file : Files) :
    reference se host place contents file p =
      reference se host place contents' file p := by
  cases hcontent : finalContent se host file with
  | error e =>
    rw [reference, reference, hcontent]
    exact h
  | ok content =>
    rw [reference_ok hcontent, reference_ok hcontent]
    by_cases hp : p = place file.path
    · subst hp
      rw [Function.update_self, Function.update_self, h]
    · rw [Function.update_of_ne hp, Function.update_of_ne hp, h]

theorem referenceAll_congr {contents : Contents} (h : contents p = contents' p)
    (files : List Files) :
    referenceAll se host place contents files p = referenceAll se host place contents' files p := by
  induction files generalizing contents contents' with
  | nil => exact h
  | cons file files ih =>
    rw [referenceAll_cons, referenceAll_cons]
    exact ih (reference_congr h file)

/-- A place whose first entry does not append ends up with the same content, whatever it held. -/
theorem referenceAll_of_setFirst {files : List Files} (hfirst : SetFirst place p files)
    (hfiles : ∀ file ∈ files, ∃ content, finalContent se host file = .ok content)
    (contents contents' : Contents) :
    referenceAll se host place contents files p = referenceAll se host place contents' files p := by
  induction files generalizing contents contents' with
  | nil => exact absurd hfirst id
  | cons file files ih =>
    rw [referenceAll_cons, referenceAll_cons]
    obtain ⟨⟨content, hcontent⟩, hrest⟩ := List.forall_mem_cons.1 hfiles
    rw [SetFirst] at hfirst
    split at hfirst
    · -- the first entry for the place: from here on the two contents agree on it
      rename_i hp
      subst hp
      refine referenceAll_congr ?_ files
      rw [reference_ok hcontent, reference_ok hcontent, hfirst, Function.update_self,
        Function.update_self]
      rfl
    · exact ih hfirst hrest _ _

end Reference

/-! ## Execute -/

section Execute

variable {se : ScriptExecutor} {host : Host} {fs : FileSystem}

theorem writeContent_meets (file : Files) :
    GoM.Meets (Contract host) (writeContent se file) () fs fun e _ fs' => e = .ok () →
      (∃ content, finalContent se host file = .ok content) ∧ fs'.place = fs.place ∧
        fs'.contentAt = leaves se host fs.place fs.contentAt file := by
  rw [writeContent]
  cases hdecoded : decodeContent se.decoders file.content (parseEncodingScheme file.encoding) with
  | error e => exact .throw nofun
  | ok content =>
    rw [wrapResult, GoM.pure_bind, parseTemplate]
    cases se.parser with
    | false => exact .panic nofun
    | true =>
      refine .call_bind fun r fs₁ hparse => ?_
      obtain ⟨hkeeps, hexpand⟩ := hparse
      cases r with
      | error e => exact .throw nofun
      | ok content' =>
        have hcontent : finalContent se host file = .ok content' := by
          rw [finalContent, decoded, hdecoded]
          exact hexpand content' rfl
        refine .call_bind fun err fs₂ hwrite => ?_
        obtain ⟨hplace, hwritten⟩ := hwrite
        cases err with
        | some e => exact .throw nofun
        | none =>
          refine .pure fun _ => ⟨⟨content', hcontent⟩, hplace.trans hkeeps.place, ?_⟩
          rw [hwritten rfl, hkeeps.place, hkeeps.content, leaves_ok hcontent]

theorem writeFile_meets (file : Files) :
    GoM.Meets (Contract host) (writeFile se file) () fs fun e _ fs' => e = .ok () →
      (∃ content, finalContent se host file = .ok content) ∧ fs'.place = fs.place ∧
        fs'.contentAt = leaves se host fs.place fs.contentAt file := by
  refine .call_bind fun err fs₁ hkeeps => ?_
  cases err with
  | some e => exact .throw nofun
  | none =>
    change GoM.Meets _ (pure () >>= fun _ => writeContent se file) () fs₁ _
    rw [GoM.pure_bind]
    obtain ⟨hplace, hcontent⟩ : SameFiles fs fs₁ := hkeeps
    refine (writeContent_meets file).mono fun e _ fs' h hok => ?_
    rw [← hplace, ← hcontent]
    exact h hok

theorem writeFiles_meets (files : List Files) :
    GoM.Meets (Contract host) (writeFiles se files) () fs fun e _ fs' => e = .ok () →
      (∀ file ∈ files, ∃ content, finalContent se host file = .ok content) ∧ fs'.place = fs.place ∧
        fs'.contentAt = leavesAll se host fs.place fs.contentAt files := by
  induction files generalizing fs with
  | nil => exact .pure fun _ => ⟨nofun, rfl, rfl⟩
  | cons file files ih =>
    refine .bind ((writeFile_meets file).mono ?_)
    intro e _ fs' h
    cases e with
    | err e => exact nofun
    | panic msg => exact nofun
    | ok =>
      obtain ⟨hfile, hplace, hcontent⟩ := h rfl
      refine ih.mono fun e _ fs'' h' hok => ?_
      obtain ⟨hfiles, hplace', hcontent'⟩ := h' hok
      refine ⟨List.forall_mem_cons.2 ⟨hfile, hfiles⟩, hplace'.trans hplace, ?_⟩
      rw [hcontent', hplace, hcontent, leavesAll_cons]

/-- A function that returns no error has come past its first part. -/
theorem hosted_bind_ok {x : ExecutorM Unit} {f : Unit → ExecutorM Unit} {os : List SysOutcome}
    (h : (hosted host os (x >>= f) fs).1 = .ok ()) : (hosted host os x fs).1 = .ok () := by
  rw [hosted] at h ⊢
  obtain ⟨rest, hrest, herr, hpanic⟩ := GoM.bind_apply x f ()
  rw [hrest, Prog.handle_bind] at h
  obtain ⟨n, hrun⟩ := Prog.run_bind host.exec (Prog.handle interfaces (x ()))
    (fun r => Prog.handle interfaces (rest r)) os fs
  rw [hrun] at h
  generalize Prog.run host.exec os (Prog.handle interfaces (x ())) fs = r at h ⊢
  obtain ⟨⟨e, _⟩, fs'⟩ := r
  cases e with
  | ok => rfl
  | err e =>
    rw [herr] at h
    exact h
  | panic msg =>
    rw [hpanic] at h
    exact h

end Execute

/-- For every file system and every script of which `Execute` returns nil: when the files have been
written, before the commands run, a name has the content that the entries give it, in order, on top of
what was there, exactly if the place it leads to gets no more bytes than it should; and where the first
entry for a file does not append, what was there does not matter for what it should have. -/
theorem writeFiles_reference (se : ScriptExecutor) (host : Host) (os : List SysOutcome)
    (bootstrapScript : String) (config : BootstrapConfig)
    (hscript : se.unmarshal bootstrapScript = .ok config) (fs : FileSystem)
    (hnil : (hosted host os (execute se bootstrapScript) fs).1 = .ok ()) :
    let fs' := (hosted host os (writeFiles se config.filesToWrite) fs).2
    let fits := fun name => FitsAt se host fs.place fs.contentAt config.filesToWrite (fs.place name)
    (∀ name, fs'.read name =
        referenceAll se host fs.place fs.contentAt config.filesToWrite (fs.place name) ↔ fits name) ∧
      ∀ name, SetFirst fs.place (fs.place name) config.filesToWrite → ∀ contents, (fs'.read name =
        referenceAll se host fs.place contents config.filesToWrite (fs.place name) ↔ fits name) := by
  intro fs' fits
  rw [execute, hscript] at hnil
  have hwritten : (hosted host os (writeFiles se config.filesToWrite) fs).1 = .ok () :=
    hosted_bind_ok hnil
  have hmeets : GoM.Meets (Contract host) (writeFiles se config.filesToWrite) () fs _ :=
    writeFiles_meets config.filesToWrite
  obtain ⟨hfiles, hplace, hcontent⟩ :=
    hmeets.handle interfaces_keep_contract os (fun _ _ => trivial) hwritten
  have hread : ∀ name, fs'.read name =
      leavesAll se host fs.place fs.contentAt config.filesToWrite (fs.place name) := by
    intro name
    rw [FileSystem.read, show fs'.place = fs.place from hplace]
    exact congrFun hcontent _
  have hiff : ∀ name, fs'.read name =
      referenceAll se host fs.place fs.contentAt config.filesToWrite (fs.place name) ↔ fits name := by
    intro name
    rw [hread name]
    exact leavesAll_eq_iff config.filesToWrite (fs.place name)
  refine ⟨hiff, fun name hfirst contents => ?_⟩
  rw [referenceAll_of_setFirst hfirst hfiles contents fs.contentAt]
  exact hiff name

/-! ### A small host -/

/-- Scripts that write these files, in plain text and without templates. -/
def plainExecutor (files : List Files) : ScriptExecutor where
  unmarshal _ := .ok { filesToWrite := files }
  decoders := ⟨.ok, .ok⟩

def plainHost : Host := ⟨.ok, fun _ fs => fs⟩

/-- A file system with one file. -/
def holding (place : String) (content : Bytes) : FileSystem where
  nodes p := if p = place then some (.file ⟨content, 0o644, (0, 0)⟩) else none

/-- A file of three bytes is set to one byte, which keeps the tail, then to four bytes, which cover it,
and is then appended to. -/
theorem writeFiles_reference_hosts :
    let files : List Files := [{ path := "/etc/hosts", content := [9] },
      { path := "/etc/hosts", content := [7, 8, 9, 10] },
      { path := "/etc/hosts", content := [11], append := true }]
    let fs := holding "/etc/hosts" [1, 2, 3]
    (plainExecutor files).unmarshal "" = .ok { filesToWrite := files } ∧
      (hosted plainHost [] (execute (plainExecutor files) "") fs).1 = .ok () ∧
      FitsAt (plainExecutor files) plainHost fs.place fs.contentAt files "/etc/hosts" ∧
      (hosted plainHost [] (writeFiles (plainExecutor files) files) fs).2.read "/etc/hosts" =
        some [7, 8, 9, 10, 11] := by
  intro files fs
  have hnil : (hosted plainHost [] (execute (plainExecutor files) "") fs).1 = .ok () := by
    decide +kernel
  have hfits : FitsAt (plainExecutor files) plainHost fs.place fs.contentAt files "/etc/hosts" := by
    decide +kernel
  refine ⟨rfl, hnil, hfits, ?_⟩
  rw [((writeFiles_reference (plainExecutor files) plainHost [] "" { filesToWrite := files } rfl fs
    hnil).1 "/etc/hosts").2 hfits]
  decide +kernel

/-- A script writes one byte over a file of three: it returns nil, and the other two are still there.
Without the old file the content is the byte alone. -/
theorem tail_survives :
    let files : List Files := [{ path := "/etc/hosts", content := [9] }]
    let fs := holding "/etc/hosts" [1, 2, 3]
    (hosted plainHost [] (execute (plainExecutor files) "") fs).1 = .ok () ∧
      (hosted plainHost [] (writeFiles (plainExecutor files) files) fs).2.read "/etc/hosts" =
        some [9, 2, 3] ∧
      referenceAll (plainExecutor files) plainHost fs.place fs.contentAt files "/etc/hosts" =
        some [9] ∧
      SetFirst fs.place (fs.place "/etc/hosts") files ∧
      (hosted plainHost [] (writeFiles (plainExecutor files) files) {}).2.read "/etc/hosts" =
        some [9] := by
  refine ⟨?_, ?_, ?_, rfl, ?_⟩ <;> decide +kernel

end Byoh.Properties
