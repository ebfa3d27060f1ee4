import Byoh.Foundation.DnsNames
import Byoh.Model.System
import Mathlib.Data.List.GetD

/-!
# Provider IDs of nodes

`setNodeProviderID` compares the provider ID of a node with `byoh://<host name>/.+`, a regular
expression that is not anchored and in which a dot of the host name stands for any character. So
it accepts IDs of other hosts (`foreign_providerID_accepted`). It decides rightly on an ID exactly
if the ID is one of its host or the pattern does not occur in it (`Unambiguous`), as when the host
name has no dot, and the ID has no line feed and `byoh://` at its start only; and the ID it writes to
a node without one is accepted by every later call, whatever the name of the host
(`setNodeProviderID_exact`).
-/

set_option autoImplicit false

namespace Byoh.Properties

open Byoh.Foundation Byoh.Foundation.DnsNames Byoh.Model Byoh.Model.ByoMachineReconciler

/-! ## The regular expression -/

/-- The ID is `byoh://<name>/` and a text that is not empty and has no line feed. -/
def IsProviderIdOf (name providerID : String) : Prop :=
  ∃ s : String, s ≠ "" ∧ '\n' ∉ s.toList ∧ providerID = providerIDPrefix ++ name ++ "/" ++ s

/-- The part of the pattern before `.+`. -/
def idPattern (name : String) : String := providerIDPrefix ++ name ++ "/"

/-- The same, on the characters. -/
theorem isProviderIdOf_iff {name providerID : String} :
    IsProviderIdOf name providerID ↔
      (idPattern name).toList.isPrefixOf providerID.toList = true ∧
        providerID.toList.drop (idPattern name).toList.length ≠ [] ∧
        '\n' ∉ providerID.toList.drop (idPattern name).toList.length := by
  rw [List.isPrefixOf_iff_prefix]
  constructor
  · rintro ⟨s, hne, hline, rfl⟩
    have hlist : (providerIDPrefix ++ name ++ "/" ++ s).toList = (idPattern name).toList ++ s.toList :=
      String.toList_append
    rw [hlist, List.drop_left]
    exact ⟨List.prefix_append _ _, fun hnil => hne (String.toList_eq_nil_iff.1 hnil), hline⟩
  · rintro ⟨⟨rest, hrest⟩, hne, hline⟩
    rw [← hrest, List.drop_left] at hne hline
    refine ⟨String.ofList rest, ?_, ?_, ?_⟩
    · intro hempty
      exact hne (String.toList_ofList.symm.trans (congrArg String.toList hempty))
    · rwa [String.toList_ofList]
    · rw [← String.toList_inj, ← hrest, String.toList_append, String.toList_ofList]
      rfl

instance (name providerID : String) : Decidable (IsProviderIdOf name providerID) :=
  decidable_of_iff _ isProviderIdOf_iff.symm

/-- `regexp.MatchString` in `setNodeProviderID`. -/
def accepts (name providerID : String) : Bool :=
  Text.matchString (providerIDPrefix ++ name ++ "/.+") providerID

/-- Somewhere in the ID stand `byoh://`, a text that fits the name (a dot of the name fits any
character but a line feed), a slash and one more character of the line. -/
def PatternOccurs (name providerID : String) : Prop :=
  ∃ pre mid c post, providerID.toList = pre ++ (mid ++ c :: post) ∧
    List.Forall₂ Text.Fits (idPattern name).toList mid ∧ c ≠ '\n'

/-- The ID is one of the host, or the pattern of the host does not occur in it. -/
def Unambiguous (name providerID : String) : Prop :=
  IsProviderIdOf name providerID ∨ ¬PatternOccurs name providerID

/-- A text that fits a pattern without dots is the pattern. -/
theorem eq_of_fits {pat mid : List Char} (hdot : '.' ∉ pat) (h : List.Forall₂ Text.Fits pat mid) :
    mid = pat := by
  induction h with
  | nil => rfl
  | @cons p c pat mid hc _ ih =>
    have hp : p ≠ '.' := by
      rintro rfl
      exact hdot List.mem_cons_self
    rw [(Text.fits_iff_eq hp).1 hc, ih fun hin => hdot (List.mem_cons_of_mem _ hin)]

theorem mem_idPattern {name : String} {c : Char} (h : c ∈ (idPattern name).toList) :
    c ∈ providerIDPrefix.toList ∨ c ∈ name.toList ∨ c = '/' := by
  rw [idPattern, String.toList_append, String.toList_append, List.mem_append, List.mem_append] at h
  rcases h with (h | h) | h
  · exact .inl h
  · exact .inr (.inl h)
  · exact .inr (.inr (List.mem_singleton.1 h))

theorem idPattern_noDot {name : String} (hdot : '.' ∉ name.toList) :
    '.' ∉ (idPattern name).toList := by
  intro h
  rcases mem_idPattern h with h | h | h
  · exact absurd h (by decide)
  · exact hdot h
  · exact absurd h (by decide)

section Names

variable {name : String} (hname : isDNS1123Subdomain name = true) {providerID : String}

include hname

/-- The name of a host has no characters that repeat others in a regular expression. -/
theorem idPattern_plain : Text.Plain (idPattern name).toList := by
  intro c hc
  rcases mem_idPattern hc with hc | hc | rfl
  · have hstar : '*' ∉ providerIDPrefix.toList := by decide
    have hplus : '+' ∉ providerIDPrefix.toList := by decide
    exact ⟨fun h => hstar (h ▸ hc), fun h => hplus (h ▸ hc)⟩
  · rcases (isDNS1123Subdomain_spec hname).2 c hc with hlower | rfl | rfl
    · constructor
      · rintro rfl
        exact absurd hlower (by decide)
      · rintro rfl
        exact absurd hlower (by decide)
    · decide
    · decide
  · decide

theorem accepts_iff : accepts name providerID = true ↔ PatternOccurs name providerID := by
  have hslash : "/.+" = "/" ++ ".+" := rfl
  rw [accepts, hslash, ← String.append_assoc]
  exact Text.matchString_dotPlus (idPattern_plain hname)

/-- The IDs of the host are accepted. -/
theorem accepts_of_isProviderIdOf (h : IsProviderIdOf name providerID) :
    accepts name providerID = true := by
  obtain ⟨s, hne, hline, rfl⟩ := h
  cases hs : s.toList with
  | nil => exact absurd (String.toList_eq_nil_iff.1 hs) hne
  | cons c post =>
    rw [hs] at hline
    refine (accepts_iff hname).2 ⟨[], (idPattern name).toList, c, post, ?_, ?_, ?_⟩
    · rw [String.toList_append, hs]
      rfl
    · exact List.forall₂_same.2 fun c _ => Text.fits_self c
    · rintro rfl
      exact hline List.mem_cons_self

/-- The IDs of the host are accepted and no others, exactly for unambiguous ones. -/
theorem accepts_iff_isProviderIdOf :
    (accepts name providerID = true ↔ IsProviderIdOf name providerID) ↔ Unambiguous name providerID := by
  rw [Unambiguous, ← accepts_iff hname]
  constructor
  · intro hiff
    by_cases hid : IsProviderIdOf name providerID
    · exact .inl hid
    · exact .inr fun haccepts => hid (hiff.1 haccepts)
  · rintro (hid | hnot)
    · exact ⟨fun _ => hid, accepts_of_isProviderIdOf hname⟩
    · exact ⟨fun haccepts => absurd haccepts hnot, accepts_of_isProviderIdOf hname⟩

end Names

/-- An ID is unambiguous when the name has no dot, and the ID has no line feed and the prefix at its
start only. -/
theorem unambiguous_of_noDot {name providerID : String} (hdot : '.' ∉ name.toList)
    (hline : '\n' ∉ providerID.toList)
    (hstart : Text.contains (String.ofList providerID.toList.tail) providerIDPrefix = false) :
    Unambiguous name providerID := by
  refine Classical.or_iff_not_imp_right.2 fun hoccurs => ?_
  obtain ⟨pre, mid, c, post, htext, hfits, -⟩ := not_not.1 hoccurs
  obtain rfl : mid = (idPattern name).toList := eq_of_fits (idPattern_noDot hdot) hfits
  cases pre with
  | cons d pre =>
    -- the prefix would occur after the first character
    have hin : Text.contains (String.ofList providerID.toList.tail) providerIDPrefix = true := by
      refine Text.contains_iff.2 ⟨pre, name.toList ++ "/".toList ++ c :: post, ?_⟩
      rw [htext, List.cons_append, List.tail_cons, String.toList_ofList, idPattern]
      simp only [String.toList_append, List.append_assoc]
    rw [hstart] at hin
    cases hin
  | nil =>
    rw [List.nil_append] at htext
    refine ⟨String.ofList (c :: post), ?_, ?_, ?_⟩
    · intro hempty
      have hlist := congrArg String.toList hempty
      rw [String.toList_ofList] at hlist
      cases hlist
    · rw [String.toList_ofList]
      intro hin
      rw [htext] at hline
      exact hline (List.mem_append_right _ hin)
    · rw [← String.toList_inj, htext, String.toList_append, String.toList_ofList]
      rfl

/-! ## The suffix -/

theorem randomChars_length (n seed : Nat) : (randomChars n seed).length = n := by
  induction n generalizing seed with
  | zero => rfl
  | succ n ih => rw [randomChars, List.length_cons, ih]

theorem randomChars_mem {n seed : Nat} {c : Char} (h : c ∈ randomChars n seed) : c ∈ charSet := by
  induction n generalizing seed with
  | zero => cases h
  | succ n ih =>
    rw [randomChars, List.mem_cons] at h
    rcases h with rfl | h
    · have hlt : seed % charSet.length < charSet.length := Nat.mod_lt _ (by decide)
      rw [List.getD_eq_getElem _ _ hlt]
      exact List.getElem_mem hlt
    · exact ih h

/-- The ID that is written to a node without one is an ID of the host. -/
theorem isProviderIdOf_generated (name : String) (seed : Nat) :
    IsProviderIdOf name (providerIDPrefix ++ name ++ "/" ++
      String.ofList (randomChars providerIDSuffixLength seed)) := by
  refine ⟨_, ?_, ?_, rfl⟩
  · intro hempty
    have hlength := congrArg String.length hempty
    rw [String.length_ofList, randomChars_length] at hlength
    cases hlength
  · rw [String.toList_ofList]
    intro hline
    exact absurd (randomChars_mem hline) (by decide)

/-! ## The function -/

variable {cluster : NamespacedName} {host : ByoHost} {w : World} {s : Scope}

/-- What a call answers for a node that has an ID: nothing is written, and the ID is returned when
the node could be read and the ID is accepted. -/
theorem setNodeProviderID_existing {p : String} (hp : p ≠ "")
    (hnode : w.nodes.lookup (cluster, host.name) = some p) (os : List Outcome) :
    Prog.run exec os (setNodeProviderID cluster host s) w =
      ((if (os.headD default).readOk then
          if accepts host.name p then .ok p
          else .err (.text "invalid format for node.Spec.ProviderID")
        else .err (.api .other), s), w) := by
  have hread : exec (os.headD default) (.getNode cluster host.name) w =
      (if (os.headD default).readOk then .ok p else .error .other, w) := by
    simp only [exec, readObject, hnode]
  rw [setNodeProviderID, GoM.call_bind_apply, Prog.run_call, hread]
  by_cases hok : (os.headD default).readOk = true
  · by_cases haccepts : accepts host.name p = true
    · rw [if_pos hok, if_pos hok, if_pos haccepts]
      simp only [ne_eq, hp, not_false_eq_true, ↓reduceIte]
      rw [accepts] at haccepts
      rw [if_pos haccepts]
      rfl
    · rw [if_pos hok, if_pos hok, if_neg haccepts]
      simp only [ne_eq, hp, not_false_eq_true, ↓reduceIte]
      rw [accepts] at haccepts
      rw [if_neg haccepts]
      rfl
  · rw [if_neg hok, if_neg hok]
    rfl

/-- The ID is returned when the node could be read and the ID is accepted. -/
theorem setNodeProviderID_returns_iff {p : String} (hp : p ≠ "")
    (hnode : w.nodes.lookup (cluster, host.name) = some p) (os : List Outcome) :
    (Prog.run exec os (setNodeProviderID cluster host s) w).1.1 = .ok p ↔
      (os.headD default).readOk = true ∧ accepts host.name p = true := by
  rw [setNodeProviderID_existing hp hnode os]
  cases (os.headD default).readOk with
  | false => simp
  | true => cases accepts host.name p <;> simp

/-- The outcome of a call is the default, in which everything succeeds, or one of the list. -/
theorem headD_mem {os : List Outcome} (fails : Outcome → Prop) (hdefault : ¬fails default)
    (h : fails (os.headD default)) : ∃ o ∈ os, fails o := by
  cases os with
  | nil => exact absurd h hdefault
  | cons o os => exact ⟨o, List.mem_cons_self, h⟩

/-- What a call does to a node without an ID: it writes an ID of the host and returns it, or it
returns an error and leaves the node, because the read or the write failed. -/
theorem setNodeProviderID_new (hnode : w.nodes.lookup (cluster, host.name) = some "")
    (os : List Outcome) :
    (∃ id, IsProviderIdOf host.name id ∧
      Prog.run exec os (setNodeProviderID cluster host s) w =
        ((.ok id, s), { w with nodes := w.nodes.insert (cluster, host.name) id })) ∨
    (∃ e, Prog.run exec os (setNodeProviderID cluster host s) w = ((.err e, s), w)) ∧
      ∃ o ∈ os, ¬(o.readOk = true ∧ o.writeOk = true) := by
  have hread : exec (os.headD default) (.getNode cluster host.name) w =
      (if (os.headD default).readOk then .ok "" else .error .other, w) := by
    simp only [exec, readObject, hnode]
  rw [setNodeProviderID, GoM.call_bind_apply, Prog.run_call, hread]
  by_cases hok : (os.headD default).readOk = true
  · rw [if_pos hok]
    simp only [ne_eq, not_true_eq_false, ↓reduceIte]
    rw [GoM.call_bind_apply, Prog.run_call, GoM.call_bind_apply, Prog.run_call]
    generalize os.tail.headD default = o
    by_cases hwrite : (os.tail.tail.headD default).writeOk = true
    · refine .inl ⟨_, isProviderIdOf_generated host.name o.pick, ?_⟩
      simp only [exec, writeObject, hnode, hwrite, ↓reduceIte, mergeField_before]
      rfl
    · refine .inr ⟨⟨.api .other, ?_⟩, ?_⟩
      · simp only [exec, writeObject, hwrite]
        rfl
      · obtain ⟨o, ho, hfails⟩ := headD_mem (¬·.writeOk = true) (by decide) hwrite
        exact ⟨o, List.mem_of_mem_tail (List.mem_of_mem_tail ho), fun h => hfails h.2⟩
  · refine .inr ⟨⟨.api .other, ?_⟩, ?_⟩
    · rw [if_neg hok]
      rfl
    · obtain ⟨o, ho, hfails⟩ := headD_mem (¬·.readOk = true) (by decide) hok
      exact ⟨o, ho, fun h => hfails h.1⟩

/-- A call for a node with an ID of the host: it returns the ID, whatever its host is called, as
soon as it can read the node. -/
theorem setNodeProviderID_own {id : String} (hname : isDNS1123Subdomain host.name = true)
    (hid : IsProviderIdOf host.name id) (hnode : w.nodes.lookup (cluster, host.name) = some id)
    (os : List Outcome) (hread : ∀ o ∈ os, o.readOk = true) :
    Prog.run exec os (setNodeProviderID cluster host s) w = ((.ok id, s), w) := by
  have hne : id ≠ "" := by
    rintro rfl
    obtain ⟨hbegins, -⟩ := isProviderIdOf_iff.1 hid
    rw [List.isPrefixOf_iff_prefix, String.toList_empty, List.prefix_nil] at hbegins
    rw [idPattern, String.toList_append] at hbegins
    exact absurd hbegins (by simp)
  have hfirst : (os.headD default).readOk = true := by
    cases os with
    | nil => rfl
    | cons o os => exact hread o List.mem_cons_self
  rw [setNodeProviderID_existing hne hnode os, if_pos hfirst,
    if_pos (accepts_of_isProviderIdOf hname hid)]

/-- For a node that has an ID, `setNodeProviderID` writes nothing and returns the ID or an error. It
returns the ID exactly when it could read the node and the ID is one of the host, if and only if the ID
is unambiguous. To a node without an ID it writes one that every later call for the host returns. -/
theorem setNodeProviderID_exact (cluster : NamespacedName) (host : ByoHost)
    (hname : isDNS1123Subdomain host.name = true) :
    (∀ (w : World) (s : Scope) (p : String),
      w.nodes.lookup (cluster, host.name) = some p → p ≠ "" →
        (∀ os, (Prog.run exec os (setNodeProviderID cluster host s) w).2 = w ∧
          ((Prog.run exec os (setNodeProviderID cluster host s) w).1.1 = .ok p ∨
            ∃ e, (Prog.run exec os (setNodeProviderID cluster host s) w).1.1 = .err e)) ∧
        ((∀ os : List Outcome,
          (Prog.run exec os (setNodeProviderID cluster host s) w).1.1 = .ok p ↔
            (os.headD default).readOk = true ∧ IsProviderIdOf host.name p) ↔
          Unambiguous host.name p)) ∧
    ∀ (w : World) (s : Scope) (os : List Outcome),
      w.nodes.lookup (cluster, host.name) = some "" →
      (∀ o ∈ os, o.readOk = true ∧ o.writeOk = true) →
        ∃ id, Prog.run exec os (setNodeProviderID cluster host s) w =
            ((.ok id, s), { w with nodes := w.nodes.insert (cluster, host.name) id }) ∧
          ∀ (host' : ByoHost) (w' : World) (s' : Scope) (os' : List Outcome),
            host'.name = host.name → w'.nodes.lookup (cluster, host.name) = some id →
            (∀ o ∈ os', o.readOk = true) →
              Prog.run exec os' (setNodeProviderID cluster host' s') w' = ((.ok id, s'), w') := by
  constructor
  · intro w s p hnode hp
    refine ⟨fun os => ?_, ?_⟩
    · rw [setNodeProviderID_existing hp hnode os]
      refine ⟨rfl, ?_⟩
      split
      · split
        · exact .inl rfl
        · exact .inr ⟨_, rfl⟩
      · exact .inr ⟨_, rfl⟩
    · rw [← accepts_iff_isProviderIdOf hname]
      simp only [setNodeProviderID_returns_iff hp hnode]
      constructor
      · intro hall
        -- the outcomes in which the node can be read
        exact and_congr_right_iff.1 (hall []) rfl
      · intro hiff os
        rw [hiff]
  · intro w s os hnode hos
    rcases setNodeProviderID_new (s := s) hnode os with ⟨id, hid, hrun⟩ | ⟨-, o, ho, hfails⟩
    · refine ⟨id, hrun, ?_⟩
      intro host' w' s' os' hsame hnode' hread
      rw [← hsame] at hname hid hnode'
      exact setNodeProviderID_own hname hid hnode' os' hread
    · exact absurd (hos o ho) hfails

/-! ## Small nodes -/

/-- A node of the workload cluster. -/
def nodeWorld (name providerID : String) : World :=
  { nodes := AList.insert (Small.key "prod", name) providerID ∅ }

/-- A reconcile of a machine. -/
def smallScope : Scope where
  cluster := Small.cluster
  machine := Small.capiMachine "m1"
  byoCluster := { ns := "default", name := "prod" }
  byoMachine := Small.machine "m1"

/-- A node with an ID of its host, whose name has a dot, one with an ID of another host, and one
without an ID. -/
theorem setNodeProviderID_exact_small :
    (Prog.run exec [] (setNodeProviderID (Small.key "prod") (Small.host "node.a") smallScope)
        (nodeWorld "node.a" "byoh://node.a/a1b2c3")).1.1 = .ok "byoh://node.a/a1b2c3" ∧
      (Prog.run exec [] (setNodeProviderID (Small.key "prod") (Small.host "h1") smallScope)
        (nodeWorld "h1" "byoh://h2/a1b2c3")).1.1 ≠ .ok "byoh://h2/a1b2c3" ∧
      ∃ id, Prog.run exec []
          (setNodeProviderID (Small.key "prod") (Small.host "h1") smallScope)
          (nodeWorld "h1" "") = ((.ok id, smallScope), nodeWorld "h1" id) := by
  refine ⟨?_, ?_, ?_⟩
  · have hexact := setNodeProviderID_exact (Small.key "prod") (Small.host "node.a") (by decide)
    have hid : IsProviderIdOf "node.a" "byoh://node.a/a1b2c3" := by decide
    exact ((hexact.1 (nodeWorld "node.a" "byoh://node.a/a1b2c3") smallScope _ rfl
      (by decide)).2.2 (.inl hid) []).2 ⟨rfl, hid⟩
  · have hexact := setNodeProviderID_exact (Small.key "prod") (Small.host "h1") (by decide)
    intro h
    have hunambiguous : Unambiguous "h1" "byoh://h2/a1b2c3" :=
      unambiguous_of_noDot (by decide) (by decide) (by decide)
    have hid := (((hexact.1 (nodeWorld "h1" "byoh://h2/a1b2c3") smallScope _ rfl
      (by decide)).2.2 hunambiguous []).1 h).2
    exact absurd hid (by decide)
  · have hexact := setNodeProviderID_exact (Small.key "prod") (Small.host "h1") (by decide)
    obtain ⟨id, hrun, -⟩ := hexact.2 (nodeWorld "h1" "") smallScope [] rfl (fun _ h => by cases h)
    exact ⟨id, hrun⟩

/-- The name is one that the API server accepts, and the ID is returned although it is not one of the
host. -/
def AcceptsForeign (name providerID : String) : Prop :=
  isDNS1123Subdomain name = true ∧ ¬IsProviderIdOf name providerID ∧
    (Prog.run exec [] (setNodeProviderID (Small.key "prod") (Small.host name) smallScope)
      (nodeWorld name providerID)).1.1 = .ok providerID

instance (name providerID : String) : Decidable (AcceptsForeign name providerID) :=
  inferInstanceAs (Decidable (_ ∧ _ ∧ _))

/-- A dot of the host name fits another character, the pattern is found after the start, and what
follows the first line is not looked at. -/
theorem foreign_providerID_accepted :
    AcceptsForeign "node.a" "byoh://node-a/1" ∧ AcceptsForeign "h1" "aws://byoh://h1/1" ∧
      AcceptsForeign "h1" "byoh://h1/1\n2" := by
  decide

end Byoh.Properties
