import ExprTree.Signature.Encode
import ExprTree.Proofs.Signature.RoundTrip
import ExprTree.Proofs.Ty.Building

/-!
# What is written

The signature that a type or a method has, as the reader knows signatures. What
is written for a formed type is the text of its signature; only an application
without arguments is written otherwise, and has no signature of its own.
-/

namespace ExprTree.Signature

/-- The signature of a class or generic form over signatures of its arguments. -/
def formSig (form : Ty) (arguments : List TypeSig) : Except NamingFault TypeSig := do
  return .named (← nameOf form) arguments (some (Ty.packageOf form.module))

mutual

/-- The signature of a type. -/
def sigOf : Ty → Except NamingFault TypeSig
  | .parameter p _ => .ok (.parameter p)
  | .literal .none => formSig .nothing []
  | .variable n => .error (.variable n)
  | .literal l => .error (.notType (.literal l))
  | .generic o as => do formSig o (← sigsOf as)
  | .bar ms => do formSig .union (← sigsOf ms)
  | t => formSig t []

def sigsOf : List Ty → Except NamingFault (List TypeSig)
  | [] => .ok []
  | t :: ts => do
    let first ← sigOf t
    return first :: (← sigsOf ts)

end

/-- The signature of a method: that of its definition when it is closed. -/
def memberSigOf (m : Method) : Except NamingFault MemberSig := do
  let parameters ← sigsOf m.definition.parameterTypes
  let declaring ← sigOf (.cls m.declaring)
  return ⟨m.name, m.arity, declaring, parameters⟩

/-! ## Signatures part by part -/

theorem sigOf_applied {t o : Ty} (h : t.origin? = some o) :
    sigOf t = (do formSig o (← sigsOf t.arguments)) := by
  cases t <;> simp_all [Ty.origin?, sigOf, Ty.arguments]

theorem nameOf_eq_ok {form : Ty} {name : String} :
    nameOf form = .ok name ↔ form.isAnonymous = false ∧ form.qualifiedName? = some name := by
  unfold nameOf
  cases form.isAnonymous with
  | true => simp
  | false => cases form.qualifiedName? <;> simp

theorem formSig_eq_ok {form : Ty} {arguments : List TypeSig} {s : TypeSig} :
    formSig form arguments = .ok s ↔
      ∃ name, nameOf form = .ok name ∧ s = .named name arguments (some (Ty.packageOf form.module)) := by
  simp [formSig, bind_eq_ok, eq_comm (a := s)]

theorem sigsOf_cons_eq_ok {t : Ty} {ts : List Ty} {ss : List TypeSig} :
    sigsOf (t :: ts) = .ok ss ↔ ∃ s rest, sigOf t = .ok s ∧ sigsOf ts = .ok rest ∧ ss = s :: rest := by
  simp only [sigsOf, bind_eq_ok, pure_eq_ok, Except.ok.injEq]
  constructor
  · rintro ⟨s, hs, rest, hrest, rfl⟩
    exact ⟨s, rest, hs, hrest, rfl⟩
  · rintro ⟨s, rest, hs, hrest, rfl⟩
    exact ⟨s, hs, rest, hrest, rfl⟩

theorem memberSigOf_eq_ok {m : Method} {s : MemberSig} :
    memberSigOf m = .ok s ↔ ∃ parameters declaring, sigsOf m.definition.parameterTypes = .ok parameters ∧
      sigOf (.cls m.declaring) = .ok declaring ∧ s = ⟨m.name, m.arity, declaring, parameters⟩ := by
  simp only [memberSigOf, bind_eq_ok, pure_eq_ok, Except.ok.injEq]
  constructor
  · rintro ⟨ps, hps, d, hd, rfl⟩
    exact ⟨ps, d, hps, hd, rfl⟩
  · rintro ⟨ps, d, hps, hd, rfl⟩
    exact ⟨ps, hps, d, hd, rfl⟩

/-! ## Texts -/

theorem exists_text {x : Except NamingFault String} (h : x.toOption.isSome = true) : ∃ text, x = .ok text := by
  cases x with
  | error e => cases h
  | ok text => exact ⟨text, rfl⟩

theorem encodeType_applied {t o : Ty} (h : t.origin? = some o) :
    encodeType t = (do formText o (inBrackets (← encodeTypes t.arguments))) := by
  cases t <;> simp_all [Ty.origin?, encodeType, Ty.arguments]

theorem formText_eq (form : Ty) (arguments : List TypeSig) :
    formText form (if arguments.isEmpty then "" else inBrackets (TypeSig.renderAll arguments)) =
      (formSig form arguments).map TypeSig.render := by
  unfold formText formSig
  cases nameOf form with
  | error e => rfl
  | ok name => simp [Except.map, TypeSig.render, inBrackets, String.append_assoc]

theorem encodeTypes_eq {ts : List Ty} (h : ∀ t ∈ ts, encodeType t = (sigOf t).map TypeSig.render) :
    encodeTypes ts = (sigsOf ts).map TypeSig.renderAll := by
  induction ts with
  | nil => rfl
  | cons t ts ih =>
    rw [encodeTypes, sigsOf, h t List.mem_cons_self, ih fun u hu => h u (List.mem_cons_of_mem _ hu)]
    cases sigOf t with
    | error e => rfl
    | ok s => cases sigsOf ts <;> rfl

theorem encodeType_leaf {t : Ty} (h : t.origin? = none) : encodeType t = (sigOf t).map TypeSig.render := by
  cases t with
  | parameter p n => rfl
  | literal v => cases v <;> first | exact formText_eq .nothing [] | rfl
  | cls c => exact formText_eq (.cls c) []
  | union => exact formText_eq .union []
  | «variable» n => rfl
  | generic o as => cases h
  | bar ms => cases h

/-- What is written for a formed type is the text of its signature. -/
theorem encodeType_eq {t : Ty} (ht : Ty.Formed t) : encodeType t = (sigOf t).map TypeSig.render := by
  induction t using Ty.induct_arguments with
  | step t ih =>
    cases ho : t.origin? with
    | none => exact encodeType_leaf ho
    | some o =>
      obtain ⟨-, hne⟩ := ht.isForm ho
      have hall := encodeTypes_eq fun a ha => ih a ha (ht.arguments a ha)
      rw [encodeType_applied ho, sigOf_applied ho, hall]
      cases hsigs : sigsOf t.arguments with
      | error e => rfl
      | ok ss =>
        have hss : ss.isEmpty = false := by
          cases harguments : t.arguments with
          | nil => exact absurd harguments hne
          | cons a as =>
            obtain ⟨s, rest, -, -, rfl⟩ := sigsOf_cons_eq_ok.mp (harguments ▸ hsigs)
            rfl
        have htext := formText_eq o ss
        rw [hss, if_neg Bool.false_ne_true] at htext
        exact htext

/-- What is written for a method with formed parameters is the text of its signature. -/
theorem encodeMember_eq {m : Method} (hm : ∀ t ∈ m.definition.parameterTypes, Ty.Formed t) :
    encodeMember m = (memberSigOf m).map MemberSig.render := by
  rw [encodeMember, memberSigOf, encodeTypes_eq fun t ht => encodeType_eq (hm t ht), encodeType_leaf rfl]
  cases sigsOf m.definition.parameterTypes with
  | error e => rfl
  | ok parameters =>
    cases sigOf (.cls m.declaring) with
    | error e => rfl
    | ok declaring => simp [Except.map, MemberSig.render, TypeSig.renderAll_eq]

end ExprTree.Signature
