import ExprTree.Proofs.Document.Safety
import ExprTree.Proofs.Document.Steps
import ExprTree.Proofs.Signature.Consulting

/-!
# Decoding without loading

Under a policy that loads no modules, decoding loads none, whether it succeeds
or fails and whatever was looked up before. The names it looks up are names of
the document, and those that it finds are found in modules loaded before it.
The exports of a loaded module are data here: to read them runs and loads nothing.
-/

namespace ExprTree

/-- The names that decoding carries along. -/
def NamesIn.decoding : NamesIn DecodeState :=
  ⟨DecodeState.names, fun names s => { s with names }, fun _ _ => rfl, fun _ => rfl, fun _ _ _ => rfl⟩

namespace Document

variable {l : Library} {policy : Policy} {d : Document} {Allowed : String → Option String → Prop}

/-- Is the name one of a signature that the document says? -/
def Mentions (d : Document) (name : String) (hint : Option String) : Prop :=
  ∃ text, d.Says text ∧ Signature.IsNamedIn text name hint

/-- A resolution does to the names in a state what it does to the names. -/
theorem resolving_consults {α : Type} {r : Signature.Resolving α}
    (h : ConsultsOnly l NamesIn.itself Allowed r) : ConsultsOnly l NamesIn.decoding Allowed (resolving r) := by
  intro s
  obtain ⟨log, hlog, hallowed⟩ := h s.names
  refine ⟨log, ⟨?_, fun names names' hnames => ?_⟩, hallowed⟩
  · rw [resolving_run]
    exact hlog.answers
  · have hsame : r.run names = ((r.run s.names).1, names') := hlog.determined names names' hnames
    change (resolving r).run { s with names } = _
    rw [resolving_run, resolving_run, hsame]
    rfl

theorem parameterFor_consults {guid typeText : String} {name : Option String}
    (h : ConsultsOnly l NamesIn.decoding Allowed (type l policy typeText)) :
    ConsultsOnly l NamesIn.decoding Allowed (parameterFor l policy guid typeText name) := by
  intro s
  cases hlookup : s.parameters.lookup guid with
  | some q => exact ⟨[], .constant fun names => parameterFor_known l policy (s := { s with names }) hlookup typeText name, by simp⟩
  | none =>
    obtain ⟨log, hlog, hallowed⟩ := h s
    refine ⟨log, ⟨?_, fun names names' hnames => ?_⟩, hallowed⟩
    · have hanswers := hlog.answers
      rw [parameterFor_new l policy hlookup]
      rcases ht : (type l policy typeText).run s with ⟨e | t, s'⟩
      · rwa [ht] at hanswers
      · rwa [ht] at hanswers
    · have hsame : (type l policy typeText).run { s with names } =
          (((type l policy typeText).run s).1, { ((type l policy typeText).run s).2 with names := names' }) :=
        hlog.determined names names' hnames
      change (parameterFor l policy guid typeText name).run { s with names } = _
      rw [parameterFor_new l policy (s := { s with names }) hlookup, parameterFor_new l policy hlookup, hsame]
      rcases (type l policy typeText).run s with ⟨e | t, s'⟩
      · rfl
      · rfl

theorem consults_isClosed (hloads : policy.loadsModules = false) (d : Document) :
    IsClosed l policy d.Says fun _ x => ConsultsOnly l NamesIn.decoding d.Mentions x where
  pure a := .pure a
  bind hx hf := .bind hx hf
  throw _ := .throw _
  long _ _ := .throw _
  type htext := by
    unfold type
    rw [hloads]
    exact (resolving_consults (Signature.decodeType_consults _)).mono fun name hint hname => ⟨_, htext, hname⟩
  method htext := by
    rw [hloads]
    exact (resolving_consults (Signature.decodeMember_consults _)).mono fun name hint hname => ⟨_, htext, hname⟩
  parameter h := parameterFor_consults h

/-- The names after a look-up that loads a module. -/
def lateNames : Names :=
  (Sample.library.resolveName "hostlazy.Unit" (some "hostlazy") true ⟨Sample.library.preloaded, []⟩).2

end Document

end ExprTree
