import ExprTree.Proofs.CommandLine.Converting
import ExprTree.Proofs.Document.Faults
import ExprTree.Proofs.Document.Shown
import ExprTree.Proofs.Json.Limits

/-!
# What commands report

A command ends with code 0, or says on the second channel what was wrong and
ends with code 1, unless a file holds something that only the host could speak
of: bytes that are no text, a number with too many digits, or a scalar of YAML
that is not what its tag says. A failure of that kind ends the run without a
report.
-/

namespace ExprTree

open Action (Stops)
open Signature (HasShortNumbers)

/-! ## Wordings -/

theorem Signature.Fault.exists_message {f : Signature.Fault} (h : f.isOwn = true) : ∃ message, f.message? = some message := by
  cases f with
  | invalid text fault =>
    cases fault with
    | unexpected what rest => exact ⟨_, rfl⟩
    | tooManyDigits => cases h
  | typeNotFound name hint => exact ⟨_, rfl⟩
  | memberNotFound signature reason => exact ⟨_, rfl⟩

theorem DecodeFault.exists_message {e : DecodeFault} (h : e.isOwn = true) (heap : Heap) :
    ∃ message, e.message? heap = some message := by
  cases e with
  | signature fault => exact Signature.Fault.exists_message h
  | tooManyDigits => cases h
  | _ => exact ⟨_, rfl⟩

/-! ## Policies -/

namespace Policy

/-- The signatures of a policy file. -/
def signatures (file : PolicyFile) : List String :=
  file.staticTypes ++ file.instanceTypes ++ file.methods

/-- Is the fault reported, or is it that of a text with a number that is too long? -/
def ReportsOn (texts : List String) (f : Signature.Fault) : Prop :=
  f.isOwn = true ∨ ∃ text ∈ texts, f = .invalid text .tooManyDigits ∧ ¬ HasShortNumbers text.toList

theorem mapM_stops {α : Type} {decode : String → Signature.Resolving α}
    (hdecode : ∀ text, Stops (decode text) (Signature.ReportsOn text)) (texts : List String) :
    Stops (texts.mapM decode) (ReportsOn texts) := by
  induction texts with
  | nil => exact .pure _
  | cons text texts ih =>
    rw [List.mapM_cons]
    refine .bind (fun names f names' h => ?_) fun a => .bind (fun names f names' h => ?_) fun as => .pure _
    · exact (hdecode text names f names' h).imp id fun hlong => ⟨text, List.mem_cons_self, hlong⟩
    · exact (ih names f names' h).imp id fun ⟨text', hmem, hlong⟩ => ⟨text', List.mem_cons_of_mem _ hmem, hlong⟩

theorem ReportsOn.mono {texts texts' : List String} {f : Signature.Fault} (h : ReportsOn texts f) (hsub : texts ⊆ texts') :
    ReportsOn texts' f :=
  h.imp id fun ⟨text, hmem, hlong⟩ => ⟨text, hsub hmem, hlong⟩

theorem ofFile_stops (l : Library) (file : PolicyFile) : Stops (ofFile l file) (ReportsOn (signatures file)) := by
  unfold ofFile
  refine .bind (fun names f names' h => ?_) fun _ => .bind (fun names f names' h => ?_) fun _ =>
    .bind (fun names f names' h => ?_) fun _ => .pure _
  · exact (mapM_stops Signature.decodeType_stops _ names f names' h).mono (by simp [signatures])
  · exact (mapM_stops Signature.decodeType_stops _ names f names' h).mono (by simp [signatures])
  · exact (mapM_stops Signature.decodeMember_stops _ names f names' h).mono (by simp [signatures])

theorem run_ofText (l : Library) (s : String) (names : Names) :
    (ofText l s).run names =
      match Yaml.read s with
      | .error f => (.error (.yaml f), names)
      | .ok d =>
        match PolicyFile.ofData d with
        | .error vs => (.error (.invalid vs), names)
        | .ok file => (((ofFile l file).run names).1.mapError .unresolved, ((ofFile l file).run names).2) := by
  unfold ofText
  cases Yaml.read s with
  | error f => rfl
  | ok d =>
    dsimp only
    rw [pure_bind]
    cases PolicyFile.ofData d with
    | error vs => rfl
    | ok file =>
      dsimp only
      rw [pure_bind, Action.run_bind_ok (Action.run_get names)]
      rcases (ofFile l file).run names with ⟨f | p, names'⟩ <;> rfl

end Policy

namespace Storage

/-! ## Failures without a report -/

/-- Why a failure over some files has no report. -/
inductive Escapes (t : FileTree) (files : List (Purpose × Path)) : Failure → Prop where
  /-- Bytes that are no text. -/
  | bytes {what : Purpose} {p : Path} {bytes : List UInt8} (hp : (what, p) ∈ files) (hread : t.read p = .ok bytes)
      (h : String.fromUTF8? ⟨bytes.toArray⟩ = none) : Escapes t files .notText
  /-- A number of a JSON document that has too many digits. -/
  | number {p : Path} {s : String} (hp : (.document, p) ∈ files) (hs : textAt t .document p = .ok s)
      (h : ¬ HasShortNumbers s.toList) : Escapes t files (.document (.json .tooManyDigits))
  /-- A scalar of a YAML document that is not what its tag or its escape says. -/
  | scalar {p : Path} {s : String} {f : Yaml.Fault} (hp : (.document, p) ∈ files) (hs : textAt t .document p = .ok s)
      (h : Yaml.read s = .error f) (hf : f ≠ .malformed) : Escapes t files (.document (.yaml f))
  /-- Such a scalar in a policy. -/
  | policyScalar {p : Path} {s : String} {f : Yaml.Fault} (hp : (.policy, p) ∈ files) (hs : textAt t .policy p = .ok s)
      (h : Yaml.read s = .error f) (hf : f ≠ .malformed) : Escapes t files (.policy p (.yaml f))
  /-- A number in a signature of a policy. -/
  | policyNumber {p : Path} {s text : String} {d : Data} {file : PolicyFile} (hp : (.policy, p) ∈ files)
      (hs : textAt t .policy p = .ok s) (hd : Yaml.read s = .ok d) (hfile : PolicyFile.ofData d = .ok file)
      (htext : text ∈ Policy.signatures file) (h : ¬ HasShortNumbers text.toList) :
      Escapes t files (.policy p (.unresolved (.invalid text .tooManyDigits)))
  /-- A number that a document says, be it a count or in a signature. -/
  | documentNumber {p : Path} {d : Document} {e : DecodeFault} (hp : (.document, p) ∈ files)
      (hd : documentAt t p = .ok d) (h : d.SaysLongNumber) (he : e.isNumberLimit = true) : Escapes t files (.decode e)

/-- Has a failure a wording, or a reason to have none? -/
def Explained (t : FileTree) (files : List (Purpose × Path)) (f : Failure) : Prop :=
  (∃ message, f.message? = some message) ∨ Escapes t files f

variable {l : Library} {t : FileTree} {files : List (Purpose × Path)} {p : Path} {f : Failure}

theorem textAt_explained {what : Purpose} (hp : (what, p) ∈ files) :
    Gives (fun _ => True) (Explained t files) (textAt t what p) := by
  unfold textAt
  split
  · exact .error (.inl ⟨_, rfl⟩)
  · next bytes hread =>
    split
    · exact .ok trivial
    · next hbytes => exact .error (.inr (.bytes hp hread hbytes))

/-! ## Documents -/

theorem ofRoot_explained (d : Data) :
    Gives (fun _ => True) (fun fault => Explained t files (.document fault)) (Document.ofRoot d) := by
  unfold Document.ofRoot
  split
  · next es =>
    cases Document.ofData [] (.map es) with
    | error vs => exact .error (.inl ⟨_, rfl⟩)
    | ok d => exact .ok trivial
  · exact .error (.inl ⟨_, rfl⟩)

theorem ofText_explained (format : TextFormat) {s : String} (hp : (.document, p) ∈ files)
    (hs : textAt t .document p = .ok s) :
    Gives (fun _ => True) (fun fault => Explained t files (.document fault)) (Document.ofText format s) := by
  cases format with
  | json =>
    have hread : Gives (fun _ => True) (fun cause => Explained t files (.document (.json cause))) (Json.read s) := by
      cases h : Json.read s with
      | ok d => exact .ok trivial
      | error cause =>
        cases cause with
        | malformed => exact .error (.inl ⟨_, rfl⟩)
        | tooManyDigits => exact .error (.inr (.number hp hs (Json.not_short_of_read h)))
    have hjson : Gives (fun _ => True) (fun fault => Explained t files (.document fault)) ((Json.read s).mapError .json) :=
      hread.mapError fun _ h => h
    exact hjson.bind fun d _ => ofRoot_explained d
  | yaml =>
    have hread : Gives (fun _ => True) (fun cause => Explained t files (.document (.yaml cause))) (Yaml.read s) := by
      cases h : Yaml.read s with
      | ok d => exact .ok trivial
      | error cause =>
        by_cases hcause : cause = .malformed
        · exact .error (.inl (hcause ▸ ⟨_, rfl⟩))
        · exact .error (.inr (.scalar hp hs h hcause))
    have hyaml : Gives (fun _ => True) (fun fault => Explained t files (.document fault)) ((Yaml.read s).mapError .yaml) :=
      hread.mapError fun _ h => h
    exact hyaml.bind fun d _ => ofRoot_explained d

theorem documentAt_explained (hp : (.document, p) ∈ files) :
    Gives (fun _ => True) (Explained t files) (documentAt t p) := by
  cases hformat : formatOf? p with
  | none =>
    rw [documentAt_none t hformat]
    exact .error (.inl ⟨_, rfl⟩)
  | some format =>
    rw [documentAt_some t hformat]
    exact (textAt_explained hp).known.bind fun s hs => (ofText_explained format hp hs).mapError fun _ h => h

theorem readDocument_reads (hp : (.document, p) ∈ files) :
    Reads t (fun d => documentAt t p = .ok d) (Explained t files) (readDocument FileTree.access p) :=
  fun names => ⟨documentAt t p, names, onTree_readDocument p names t, (documentAt_explained hp).known⟩

/-! ## Policies on a tree -/

theorem policy_explained {s : String} (names : Names) (hp : (.policy, p) ∈ files) (hs : textAt t .policy p = .ok s) :
    Gives (fun _ => True) (fun fault => Explained t files (.policy p fault)) ((Policy.ofText l s).run names).1 := by
  rw [Policy.run_ofText]
  cases hread : Yaml.read s with
  | error cause =>
    by_cases hcause : cause = .malformed
    · exact .error (.inl (hcause ▸ ⟨_, rfl⟩))
    · exact .error (.inr (.policyScalar hp hs hread hcause))
  | ok d =>
    dsimp only
    cases hfile : PolicyFile.ofData d with
    | error vs => exact .error (.inl ⟨_, rfl⟩)
    | ok file =>
      dsimp only
      rcases hresolved : (Policy.ofFile l file).run names with ⟨f | policy, names'⟩
      · obtain hown | ⟨text, htext, rfl, hlong⟩ := Policy.ofFile_stops l file names f _ hresolved
        · obtain ⟨message, hmessage⟩ := Signature.Fault.exists_message hown
          exact .error (.inl ⟨_, by rw [Failure.message?, PolicyFault.message?, hmessage]; rfl⟩)
        · exact .error (.inr (.policyNumber hp hs hread hfile htext hlong))
      · exact .ok trivial

theorem readPolicy_reads (hp : (.policy, p) ∈ files) :
    Reads t (fun _ => True) (Explained t files) (readPolicy FileTree.access l p) := by
  unfold readPolicy
  refine Reads.bind (P := fun s => textAt t .policy p = .ok s) (fun names => ?_) fun s hs names => ?_
  · exact ⟨textAt t .policy p, names, onTree_readText .policy p names t, (textAt_explained hp).known⟩
  · refine ⟨_, ((Policy.ofText l s).run names).2, ?_, (policy_explained (l := l) names hp hs).mapError fun _ h => h⟩
    rw [onTree_bind, onTree_get]
    dsimp only
    rcases (Policy.ofText l s).run names with ⟨r, names'⟩
    dsimp only
    rw [onTree_bind, onTree_set]
    exact onTree_ofResult _ _ _ _

/-! ## Decoding on a tree -/

/-- What was decoded can be shown, so only the decoding fails. -/
theorem decoded_reads (policy : Policy) {d : Document} (hp : (.document, p) ∈ files) (hd : documentAt t p = .ok d) :
    Reads t (fun _ => True) (Explained t files) (decoded l policy d) := by
  intro names
  rw [decoded, onTree_bind, onTree_get]
  dsimp only
  rcases hrun : (d.decode l policy).run ⟨names, [], 0⟩ with ⟨e | n, s⟩
  · refine ⟨.error (.decode e), s.names, rfl, .error ?_⟩
    obtain hown | ⟨hlimit, hlong⟩ := (Document.reports_isClosed l policy d).decode _ e s hrun
    · exact .inl (DecodeFault.exists_message hown .empty)
    · exact .inr (.documentNumber hp hd hlong hlimit)
  · obtain ⟨text, htext⟩ := Document.decode_shows l policy d _ n s hrun .empty
    refine ⟨.ok text, s.names, ?_, .ok trivial⟩
    dsimp only
    rw [onTree_bind, onTree_set]
    dsimp only
    rw [onTree_bind, onTree_ofResult]
    simp only [Except.mapError, htext]
    rfl

end Storage

namespace CommandLine

open Storage

/-- The files that a command reads. -/
def Command.files : Command → List (Purpose × Path)
  | .inspect file | .convert file _ => [(.document, .ofString file)]
  | .check file policy _ _ => (policy.toList.map fun p => (.policy, .ofString p)) ++ [(.document, .ofString file)]

variable {l : Library} {t : FileTree}

theorem act_inspect_reads (file : String) :
    Reads t (fun _ => True) (Explained t (Command.inspect file).files) (act FileTree.access l (.inspect file)) := by
  unfold act
  exact (readDocument_reads (by simp [Command.files])).bind fun d _ => .pure trivial

theorem act_check_reads (file : String) (policyFile : Option String) (allowsAllCalls loadsModules : Bool) :
    Reads t (fun _ => True) (Explained t (Command.check file policyFile allowsAllCalls loadsModules).files)
      (act FileTree.access l (.check file policyFile allowsAllCalls loadsModules)) := by
  have hfile : (.document, .ofString file) ∈ (Command.check file policyFile allowsAllCalls loadsModules).files := by
    simp [Command.files]
  -- the part that follows the policy
  have hrest : ∀ policy : Policy, Reads t (fun _ => True)
      (Explained t (Command.check file policyFile allowsAllCalls loadsModules).files) (do
        let d ← readDocument FileTree.access (.ofString file)
        return asLines [← decoded l policy d, "No issues found."]) := fun policy =>
    (readDocument_reads hfile).bind fun d hd => (decoded_reads policy hfile hd).bind fun text _ => .pure trivial
  unfold act
  cases policyFile with
  | none =>
    dsimp only
    rw [pure_bind]
    exact hrest _
  | some path => exact (readPolicy_reads (by simp [Command.files])).bind fun policy _ => hrest _

/-- Only the last step of a conversion writes, and what it says has a wording. -/
theorem act_convert_explained (source destination : String) (names : Names) :
    ∃ r names' t', onTree (act FileTree.access l (.convert source destination)) names t = ((r, names'), t') ∧
      Gives (fun _ => True) (Explained t (Command.convert source destination).files) r := by
  have hdocument : Gives (fun _ => True) (Explained t (Command.convert source destination).files)
      (documentAt t (.ofString source)) := documentAt_explained (by simp [Command.files])
  rw [onTree_convert]
  generalize documentAt t (.ofString source) = found at hdocument
  cases hdocument with
  | error h => exact ⟨_, _, _, rfl, .error h⟩
  | ok =>
    cases hformat : formatOf? (.ofString destination) with
    | none =>
      dsimp only
      rw [onTree_writeDocument_unknown hformat]
      exact ⟨_, _, _, rfl, .error (.inl ⟨_, rfl⟩)⟩
    | some format =>
      dsimp only
      rw [onTree_writeDocument hformat]
      rcases (FileTree.access.writeDeep (.ofString destination) _).run t with ⟨problem | _, t'⟩
      · exact ⟨_, _, _, rfl, .error (.inl ⟨_, rfl⟩)⟩
      · exact ⟨_, _, _, rfl, .ok trivial⟩

theorem act_explained (c : Command) (names : Names) :
    ∃ r names' t', onTree (act FileTree.access l c) names t = ((r, names'), t') ∧
      Gives (fun _ => True) (Explained t c.files) r := by
  cases c with
  | inspect file =>
    obtain ⟨r, names', hrun, hr⟩ := act_inspect_reads file names
    exact ⟨r, names', t, hrun, hr⟩
  | check file policyFile allowsAllCalls loadsModules =>
    obtain ⟨r, names', hrun, hr⟩ := act_check_reads file policyFile allowsAllCalls loadsModules names
    exact ⟨r, names', t, hrun, hr⟩
  | convert source destination => exact act_convert_explained source destination names

/-- A file with one byte that starts no character. -/
def untextual : FileTree :=
  .directory [("d.json", .file [0xff])]

end CommandLine

end ExprTree
