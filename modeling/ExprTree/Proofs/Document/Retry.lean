import ExprTree.Proofs.Document.Safety
import ExprTree.Proofs.Policy
import ExprTree.Proofs.Signature.Lookup

/-!
# What the policy decides

The modules that are loaded decide which method each call of a document names;
the policy decides only whether decoding stops there. So decoding that loads
nothing ends as it does when every call is allowed, or stops at a call that
the policy rejects; and when the rejected method is listed and decoding tried
again, a rejection less is left.
-/

namespace ExprTree

namespace Document

open Action (Ends Settled Follows)

/-! ## Calls of a document -/

mutual

/-- The parts of a document that are calls, itself among them. -/
def calls : Document → List Document
  | .node kind children values =>
    (if Kind.ofTag? kind = some .call then [.node kind children values] else []) ++ callsOfAll children
termination_by structural d => d

def callsOfAll : List (String × Option Document) → List Document
  | [] => []
  | (_, some c) :: rest => calls c ++ callsOfAll rest
  | (_, none) :: rest => callsOfAll rest
termination_by structural cs => cs

end

theorem mem_calls_of_lookup {cs : List (String × Option Document)} {role : String} {c e : Document}
    (hc : cs.lookup role = some (some c)) (he : e ∈ c.calls) : e ∈ callsOfAll cs := by
  induction cs with
  | nil => simp at hc
  | cons entry rest ih =>
    obtain ⟨r, d⟩ := entry
    rw [List.lookup_cons] at hc
    split at hc
    · cases hc
      simp [callsOfAll, he]
    · cases d <;> simp [callsOfAll, ih hc]

theorem mem_calls_of_child {d c e : Document} {role : String} (hc : d.child? role = some c) (he : e ∈ c.calls) :
    e ∈ d.calls := by
  obtain ⟨kind, children, values⟩ := d
  rw [calls]
  exact List.mem_append_right _ (mem_calls_of_lookup (Option.join_eq_some_iff.mp hc) he)

theorem self_mem_calls {d : Document} (h : Kind.ofTag? d.kind = some .call) : d ∈ d.calls := by
  obtain ⟨kind, children, values⟩ := d
  rw [calls, if_pos (show Kind.ofTag? kind = some .call from h)]
  simp

/-! ## Settled parts -/

/-- Is what is remembered what a search finds among the loaded modules? -/
def IsGood (l : Library) (loaded : List String) (s : DecodeState) : Prop :=
  s.names.IsFaithful l false loaded

/-- The parameters that were read. -/
def read (s : DecodeState) : List (String × Parameter) × Nat :=
  (s.parameters, s.next)

/-- Is it no rejection of a call? -/
def IsQuiet (e : DecodeFault) : Prop :=
  ∀ m, e ≠ .unsafeCall m

variable {l : Library} {loaded : List String} {p q : Policy}

/-- Does it end the same whatever is remembered, and without a rejection? -/
abbrev IsSettled {α : Type} (l : Library) (loaded : List String) (x : Decoding α) : Prop :=
  Settled (IsGood l loaded) read IsQuiet x

theorem malformed_settled {α : Type} (d : Document) (what : Malformation) :
    IsSettled l loaded (d.malformed what : Decoding α) :=
  .throw (by intro m h; cases h)

theorem value_settled (d : Document) (role : String) : IsSettled l loaded (d.value role) := by
  unfold value
  split
  · exact .pure _
  · exact malformed_settled d _

theorem count_settled (d : Document) (role : String) : IsSettled l loaded (d.count role) := by
  unfold count
  refine .bind (value_settled d role) fun text => ?_
  dsimp only
  split
  · exact malformed_settled d _
  · split
    · exact .throw (by intro m h; cases h)
    · exact .pure _

theorem flag_settled (d : Document) (role : String) : IsSettled l loaded (d.flag role) := by
  unfold flag
  refine .bind (value_settled d role) fun text => ?_
  dsimp only
  split
  · exact .pure _
  · split
    · exact .pure _
    · exact malformed_settled d _

theorem build_settled (d : Document) (node : Built Node) : IsSettled l loaded (d.build node) := by
  unfold build
  split
  · exact .pure _
  · exact malformed_settled d _

theorem demand_settled (b : Bool) {fault : DecodeFault} (h : IsQuiet fault) :
    IsSettled l loaded (demand b fault) := by
  unfold demand
  split
  · exact .pure _
  · exact .throw h

theorem mismatch_isQuiet (text : String) (reason : Signature.Mismatch) : IsQuiet (mismatch text reason) := by
  intro m h
  cases h

theorem resolving_settled {α : Type} {r : Signature.Resolving α} (h : Signature.IsSettled l false loaded r) :
    IsSettled l loaded (resolving r) := by
  obtain ⟨outcome, -, houtcome⟩ := h
  refine ⟨outcome.mapError .signature, ?_, fun s hs => ?_⟩
  · intro e he m hm
    subst hm
    cases outcome <;> cases he
  · obtain ⟨hend, hfaithful, -⟩ := houtcome s.names hs
    rw [resolving_run, hend]
    exact ⟨rfl, hfaithful, rfl⟩

section

variable (hp : p.loadsModules = false) (d : Document)

include hp

theorem type_settled (text : String) : IsSettled l loaded (type l p text) := by
  rw [type, hp]
  exact resolving_settled (Signature.decodeType_settled (l.loadsNothing_of_not loaded) text)

theorem decodeMember_settled : IsSettled l loaded (decodeMember l p d) := by
  unfold decodeMember
  refine .bind (value_settled d _) fun typeText => .bind (type_settled hp typeText) fun declaring => ?_
  refine .bind (value_settled d _) fun name => .bind (flag_settled d _) fun isProperty => ?_
  dsimp only
  split
  · exact .throw (by intro m h; cases h)
  · split
    · exact .pure _
    · exact .throw (by intro m h; cases h)

theorem typesUnder_settled (role : String) (n i : Nat) : IsSettled l loaded (typesUnder l p d role n i) := by
  induction n generalizing i with
  | zero => exact .pure _
  | succ n ih =>
    refine .bind (value_settled d _) fun text => .bind (type_settled hp text) fun t => ?_
    exact .bind (ih (i + 1)) fun ts => .pure _

theorem checkTypes_settled (memberText : String) (i : Nat) (ts : List Ty) :
    IsSettled l loaded (checkTypes l p d memberText i ts) := by
  induction ts generalizing i with
  | nil => exact .pure _
  | cons t ts ih =>
    refine .bind (value_settled d _) fun text => .bind (type_settled hp text) fun written => ?_
    exact .bind (demand_settled _ (mismatch_isQuiet _ _)) fun _ => ih (i + 1)

theorem namedMethod_settled : IsSettled l loaded (namedMethod l p d) := by
  unfold namedMethod
  refine .bind (value_settled d _) fun text => ?_
  refine .bind (hp ▸ resolving_settled (Signature.decodeMember_settled (l.loadsNothing_of_not loaded) text)) fun m => ?_
  refine .bind (value_settled d _) fun typeText => .bind (type_settled hp typeText) fun declaring => ?_
  refine .bind (demand_settled _ (mismatch_isQuiet _ _)) fun _ => .bind (count_settled d _) fun count => ?_
  refine .bind (typesUnder_settled hp d _ _ _) fun arguments => ?_
  have hclose : IsSettled l loaded (closeOver text m arguments) := by
    unfold closeOver
    split
    · exact .pure _
    · split
      · exact .pure _
      · exact .throw (mismatch_isQuiet _ _)
  refine .bind hclose fun m => .bind (count_settled d _) fun given => ?_
  exact .bind (demand_settled _ (mismatch_isQuiet _ _)) fun _ => .bind (checkTypes_settled hp d _ _ _) fun _ => .pure _

end

/-! ## Two policies -/

/-- Is it the rejection of a method that a call of the document names? -/
def IsRejection (l : Library) (loaded : List String) (p : Policy) (d : Document) (e : DecodeFault) : Prop :=
  ∃ m, e = .unsafeCall m ∧ p.allows m = false ∧
    ∃ c ∈ d.calls, Ends (IsGood l loaded) read (namedMethod l p c) (.ok m)

/-- Does decoding something of the document end under both policies alike, or with a rejection
under the first? -/
abbrev FollowsIn (l : Library) (loaded : List String) (p : Policy) (d : Document) {α : Type} (x y : Decoding α) :
    Prop :=
  Follows (IsGood l loaded) read IsQuiet (IsRejection l loaded p d) x y

/-- Does decoding the document end under both policies alike, or with a rejection under the first? -/
def DecodesAlike (l : Library) (loaded : List String) (p q : Policy) (d : Document) : Prop :=
  FollowsIn l loaded p d (d.decode l p) (d.decode l q)

section

variable (hp : p.loadsModules = false) (hq : q.loadsModules = false) (d : Document)

include hp hq

theorem decodeConstant_follows : FollowsIn l loaded p d (decodeConstant l p d) (decodeConstant l q d) := by
  unfold decodeConstant
  rw [← type_eq (hp.trans hq.symm)]
  refine .bind (value_settled d _).follows fun text => .bind (type_settled hp text).follows fun t => ?_
  split
  · exact (build_settled d _).follows
  · dsimp only
    split
    · exact .throw (by intro m h; cases h)
    · split
      · exact .throw (by intro m h; cases h)
      · exact (build_settled d _).follows

theorem decodeParameter_follows : FollowsIn l loaded p d (decodeParameter l p d) (decodeParameter l q d) := by
  unfold decodeParameter
  refine .bind (value_settled d _).follows fun guid => ?_
  have hrest (typeText : String) (name : Option String) :
      FollowsIn l loaded p d (parameterFor l p guid typeText name) (parameterFor l q guid typeText name) := by
    intro s t hs ht hview
    simp only [read, Prod.mk.injEq] at hview
    cases hlookup : s.parameters.lookup guid with
    | some r =>
      rw [parameterFor_known l p hlookup, parameterFor_known l q (hview.1 ▸ hlookup)]
      exact ⟨hs, .inl ⟨rfl, by rintro e ⟨⟩, ht, by simp [read, hview]⟩⟩
    | none =>
      rw [parameterFor_new l p hlookup, parameterFor_new l q (hview.1 ▸ hlookup), ← type_eq (hp.trans hq.symm)]
      have hsettled : IsSettled l loaded (type l p typeText) := type_settled hp typeText
      obtain ⟨r, hquiet, hends⟩ := hsettled
      obtain ⟨hrun, hgood, hsame⟩ := hends s hs
      obtain ⟨hrun', hgood', hsame'⟩ := hends t ht
      rcases hrs : (type l p typeText).run s with ⟨rs, s'⟩
      rcases hrt : (type l p typeText).run t with ⟨rt, t'⟩
      simp only [hrs, hrt] at hrun hrun' hgood hgood' hsame hsame'
      obtain rfl : rs = r := hrun
      obtain rfl : rt = rs := hrun'
      simp only [read, Prod.mk.injEq] at hsame hsame'
      cases rt with
      | error e =>
        exact ⟨hgood, .inl ⟨rfl, fun e' he' => hquiet e' (by cases he'; rfl), hgood', by simp [read, *]⟩⟩
      | ok u => exact ⟨hgood, .inl ⟨by simp [*], by rintro e ⟨⟩, hgood', by simp [read, *]⟩⟩
  split
  · exact .bind (malformed_settled d _).follows fun _ => .bind (value_settled d _).follows fun _ => hrest _ _
  · exact .bind (value_settled d _).follows fun typeText => hrest typeText _

end

section

variable {d : Document} (ih : ∀ role c, d.child? role = some c → DecodesAlike l loaded p q c)

theorem IsRejection.of_child {c : Document} {role : String} (hc : d.child? role = some c) {e : DecodeFault}
    (h : IsRejection l loaded p c e) : IsRejection l loaded p d e := by
  obtain ⟨m, he, hm, call, hmem, hends⟩ := h
  exact ⟨m, he, hm, call, mem_calls_of_child hc hmem, hends⟩

include ih

theorem decodedChild_follows (role : String) :
    FollowsIn l loaded p d (decodedChild d (decodedUnder l p d) role) (decodedChild d (decodedUnder l q d) role) := by
  unfold decodedChild decodedUnder
  cases hc : d.child? role with
  | none => exact (malformed_settled d _).follows
  | some c => exact (ih role c hc).imp fun e => .of_child hc

theorem decodedChild?_follows (role : String) :
    FollowsIn l loaded p d (decodedChild? (decodedUnder l p d) role) (decodedChild? (decodedUnder l q d) role) := by
  unfold decodedChild? decodedUnder
  cases hc : d.child? role with
  | none => exact .pure _
  | some c => exact .bind ((ih role c hc).imp fun e => .of_child hc) fun n => .pure _

theorem childrenUnder_follows (role : String) (n i : Nat) :
    FollowsIn l loaded p d (childrenUnder d (decodedUnder l p d) role n i)
      (childrenUnder d (decodedUnder l q d) role n i) := by
  induction n generalizing i with
  | zero => exact .pure _
  | succ n ihn => exact .bind (decodedChild_follows ih _) fun first => .bind (ihn (i + 1)) fun rest => .pure _

theorem parametersFrom_follows (n i : Nat) :
    FollowsIn l loaded p d (parametersFrom d (decodedUnder l p d) n i)
      (parametersFrom d (decodedUnder l q d) n i) := by
  induction n generalizing i with
  | zero => exact .pure _
  | succ n ihn =>
    refine .bind (decodedChild_follows ih _) fun first => ?_
    split
    · exact .bind (ihn (i + 1)) fun rest => .pure _
    · exact (malformed_settled d _).follows

end

theorem joinBinary_settled (d : Document) (k : Kind) (left right : Node) (conversion : Option Node) :
    IsSettled l loaded (joinBinary l d k left right conversion) := by
  unfold joinBinary
  split
  · exact build_settled d _
  · exact build_settled d _
  · exact malformed_settled d _

section

variable (hp : p.loadsModules = false) (hq : q.loadsModules = false) (hpq : p.Permits q)

include hp hq hpq

/-- The method is the same one, and where it is rejected the call is the reason. -/
theorem decodeMethod_follows {d : Document} (hd : Kind.ofTag? d.kind = some .call) :
    FollowsIn l loaded p d (decodeMethod l p d) (decodeMethod l q d) := by
  unfold decodeMethod
  rw [← namedMethod_eq (hp.trans hq.symm)]
  have hsettled : IsSettled l loaded (namedMethod l p d) := namedMethod_settled hp d
  obtain ⟨r, hquiet, hends⟩ := hsettled
  refine .bind_ends hends hquiet fun m hm => ?_
  subst hm
  cases hallowed : p.allows m with
  | false => exact .stop ⟨m, rfl, hallowed, d, self_mem_calls hd, hends⟩ _
  | true =>
    rw [hpq m hallowed]
    exact .pure _

theorem decodesAlike (d : Document) : DecodesAlike l loaded p q d := by
  induction d using induct_child with
  | step d ih =>
    unfold DecodesAlike
    cases d.tagged with
    | unsupported hk =>
      rw [decode_unsupported l p hk, decode_unsupported l q hk]
      exact .throw (by intro m h; cases h)
    | constant hk =>
      rw [decode_constant l p hk, decode_constant l q hk]
      exact decodeConstant_follows hp hq d
    | parameter hk =>
      rw [decode_parameter l p hk, decode_parameter l q hk]
      exact .bind (decodeParameter_follows hp hq d) fun r => .pure _
    | unary u hk =>
      rw [decode_unary l p hk, decode_unary l q hk, ← type_eq (hp.trans hq.symm)]
      refine .bind (decodedChild_follows ih _) fun operand => .bind (value_settled d _).follows fun text => ?_
      exact .bind (type_settled hp text).follows fun t => (build_settled d _).follows
    | binary b hk =>
      rw [decode_binary l p hk, decode_binary l q hk]
      refine .bind (decodedChild_follows ih _) fun left => .bind (decodedChild_follows ih _) fun right => ?_
      exact .bind (decodedChild?_follows ih _) fun conversion => (joinBinary_settled d _ _ _ _).follows
    | memberAccess hk =>
      rw [decode_member l p hk, decode_member l q hk, ← decodeMember_eq (hp.trans hq.symm)]
      refine .bind (decodeMember_settled hp d).follows fun m => ?_
      exact .bind (decodedChild_follows ih _) fun e => (build_settled d _).follows
    | lambda hk =>
      rw [decode_lambda l p hk, decode_lambda l q hk]
      refine .bind (count_settled d _).follows fun count => .bind (parametersFrom_follows ih _ _) fun ps => ?_
      exact .bind (decodedChild_follows ih _) fun body => (build_settled d _).follows
    | call hk =>
      rw [decode_call l p hk, decode_call l q hk]
      refine .bind (decodeMethod_follows hp hq hpq hk) fun m => .bind (decodedChild?_follows ih _) fun target => ?_
      exact .bind (childrenUnder_follows ih _ _ _) fun arguments => (build_settled d _).follows

end

/-! ## Listing what was rejected -/

/-- Where decoding starts: some names are remembered, and nothing is read. -/
def beginning (names : Names) : DecodeState := ⟨names, [], 0⟩

/-- What a document is decoded to. -/
def outcome (l : Library) (p : Policy) (names : Names) (d : Document) : Except DecodeFault Node :=
  ((d.decode l p).run (beginning names)).1

/-- Decodes; after the rejection of a method lists it and tries again, as often as the budget says. -/
def retry (l : Library) (d : Document) : Nat → Policy → Names → Except DecodeFault Node
  | 0, p, names => outcome l p names d
  | budget + 1, p, names =>
    match (d.decode l p).run (beginning names) with
    | (.error (.unsafeCall m), s) => retry l d budget (p.addMethod m) s.names
    | (r, _) => r

/-- Is the method that a call names rejected? -/
def isBlocked (l : Library) (loaded : List String) (p : Policy) (c : Document) : Bool :=
  match ((namedMethod l p c).run (beginning ⟨loaded, []⟩)).1 with
  | .ok m => !p.allows m
  | .error _ => false

/-- The number of calls that are rejected. -/
def blocked (l : Library) (loaded : List String) (p : Policy) (d : Document) : Nat :=
  d.calls.countP (isBlocked l loaded p)

theorem isBlocked_of_ends {c : Document} {m : Method} (h : Ends (IsGood l loaded) read (namedMethod l p c) (.ok m)) :
    isBlocked l loaded p c = !p.allows m := by
  have hrun := (h (beginning ⟨loaded, []⟩) (Names.isFaithful_fresh l false loaded)).1
  simp only [isBlocked, hrun]

theorem countP_lt {α : Type} {xs : List α} {f g : α → Bool} (hle : ∀ x ∈ xs, f x = true → g x = true) {x : α}
    (hx : x ∈ xs) (hf : f x = false) (hg : g x = true) : xs.countP f < xs.countP g := by
  obtain ⟨as, bs, rfl⟩ := List.append_of_mem hx
  have has := List.countP_mono_left (l := as) fun y hy => hle y (List.mem_append_left _ hy)
  have hbs := List.countP_mono_left (l := bs) fun y hy => hle y (by simp [hy])
  simp only [List.countP_append, List.countP_cons, hf, hg]
  simp
  omega

section

variable (hp : p.loadsModules = false)

include hp

/-- Listing the method of a rejected call leaves fewer of them. -/
theorem blocked_addMethod {d c : Document} {m : Method} (hm : p.allows m = false) (hc : c ∈ d.calls)
    (hends : Ends (IsGood l loaded) read (namedMethod l p c) (.ok m)) :
    blocked l loaded (p.addMethod m) d < blocked l loaded p d := by
  have hp' : (p.addMethod m).loadsModules = false := by rw [Policy.loadsModules_addMethod, hp]
  refine countP_lt (fun e _ he => ?_) hc ?_ ?_
  · unfold isBlocked at he ⊢
    rw [namedMethod_eq (hp'.trans hp.symm)] at he
    split at he
    · next n _ =>
      cases hn : p.allows n with
      | false => rfl
      | true => simp [Policy.permits_addMethod p m n hn] at he
    · cases he
  · have hends' : Ends (IsGood l loaded) read (namedMethod l (p.addMethod m) c) (.ok m) := by
      rwa [namedMethod_eq (hp'.trans hp.symm)]
    rw [isBlocked_of_ends hends', Policy.addMethod_allows]
    rfl
  · rw [isBlocked_of_ends hends, hm]
    rfl

variable {names names' : Names} (hnames : names.IsFaithful l false loaded) (hnames' : names'.IsFaithful l false loaded)

include hnames hnames'

theorem outcome_alike (hq : q.loadsModules = false) (hpq : p.Permits q) (d : Document) :
    ((outcome l p names d = outcome l q names' d ∧ ∀ e, outcome l p names d = .error e → IsQuiet e) ∨
      ∃ e, outcome l p names d = .error e ∧ IsRejection l loaded p d e) ∧
      IsGood l loaded ((d.decode l p).run (beginning names)).2 := by
  obtain ⟨hgood, ⟨hsame, hquiet, -, -⟩ | ⟨e, he, hstop⟩⟩ :=
    decodesAlike hp hq hpq d (beginning names) (beginning names') hnames hnames' rfl
  · exact ⟨.inl ⟨hsame, hquiet⟩, hgood⟩
  · exact ⟨.inr ⟨e, he, hstop⟩, hgood⟩

/-- Where every call is allowed there is no rejection, whatever else the policy says. -/
theorem outcome_allowing (hall : p.allowsAllCalls = true) (hq : q.loadsModules = false) (hqall : q.allowsAllCalls = true)
    (d : Document) : outcome l p names d = outcome l q names' d ∧ ∀ e, outcome l p names d = .error e → IsQuiet e := by
  rcases (outcome_alike hp hnames hnames' hq (Policy.permits_all hqall) d).1 with h | ⟨e, -, m, -, hm, -⟩
  · exact h
  · simp [Policy.allows, hall] at hm

end

theorem retry_eq {names names' : Names} (hnames : names.IsFaithful l false loaded) (hnames' : names'.IsFaithful l false loaded)
    (hp : p.loadsModules = false) (hq : q.loadsModules = false) (hall : q.allowsAllCalls = true) (d : Document)
    (budget : Nat) (hbudget : blocked l loaded p d ≤ budget) : retry l d budget p names = outcome l q names' d := by
  induction budget generalizing p names with
  | zero =>
    rcases (outcome_alike hp hnames hnames' hq (Policy.permits_all hall) d).1 with h | ⟨e, -, m, -, hm, c, hc, hends⟩
    · exact h.1
    · have := blocked_addMethod hp hm hc hends
      omega
  | succ budget ih =>
    unfold retry
    obtain ⟨⟨hsame, hquiet⟩ | ⟨e, he, m, rfl, hm, c, hc, hends⟩, hgood⟩ :=
      outcome_alike hp hnames hnames' hq (Policy.permits_all hall) d
    · split
      · next m s hrun =>
        have : outcome l p names d = .error (.unsafeCall m) := by simp [outcome, hrun]
        exact absurd rfl (hquiet _ this m)
      · next r s hrun =>
        rw [← hsame, outcome, hrun]
    · rcases hrun : (d.decode l p).run (beginning names) with ⟨r, s⟩
      rw [outcome, hrun] at he
      obtain rfl : r = .error (.unsafeCall m) := he
      rw [hrun] at hgood
      have hless := blocked_addMethod hp hm hc hends
      exact ih hgood (by rw [Policy.loadsModules_addMethod, hp]) (by omega)

/-- Decoding that loads nothing ends as it does with all calls allowed, or with the rejection of a
method. More entries never spoil a document that is accepted. Listing what was rejected and trying
again, at most once for each call, leads to what is decoded with all calls allowed. -/
theorem decode_noninterference {names names' : Names} (hnames : names.IsFaithful l false loaded)
    (hnames' : names'.IsFaithful l false loaded) (hp : p.loadsModules = false) (d : Document) :
    (outcome l p names d = outcome l p.allowingAll names' d ∨
      ∃ m, outcome l p names d = .error (.unsafeCall m) ∧ p.allows m = false) ∧
    (∀ n, outcome l p names d = .ok n → ∀ more : Policy, outcome l (p.extend more) names' d = .ok n) ∧
    (∀ m, outcome l p.allowingAll names' d ≠ .error (.unsafeCall m)) ∧
    retry l d d.calls.length p names = outcome l p.allowingAll names' d := by
  refine ⟨?_, fun n hn more => ?_, fun m hm => ?_, ?_⟩
  · rcases (outcome_alike hp hnames hnames' (q := p.allowingAll) hp (Policy.permits_all rfl) d).1 with
      h | ⟨e, he, m, rfl, hm, -⟩
    · exact .inl h.1
    · exact .inr ⟨m, he, hm⟩
  · have hextended : (p.extend more).loadsModules = false := by rw [Policy.loadsModules_extend, hp]
    rcases (outcome_alike hp hnames hnames' hextended (p.permits_extend more) d).1 with h | ⟨e, he, -⟩
    · rw [← h.1, hn]
    · rw [hn] at he
      cases he
  · have := (outcome_allowing (p := p.allowingAll) (q := p.allowingAll) hp hnames' hnames' rfl hp rfl d).2 _ hm
    exact this m rfl
  · exact retry_eq hnames hnames' hp (q := p.allowingAll) hp rfl d _ List.countP_le_length

theorem wrapping_noninterference :
    wrapping.calls.length = 1 ∧ (∃ n, outcome Sample.library Policy.strict.allowingAll
        ⟨Sample.library.preloaded, []⟩ wrapping = .ok n) ∧
      (outcome Sample.library .strict ⟨Sample.library.preloaded, []⟩ wrapping =
          outcome Sample.library Policy.strict.allowingAll ⟨Sample.library.preloaded, []⟩ wrapping ∨
        ∃ m, outcome Sample.library .strict ⟨Sample.library.preloaded, []⟩ wrapping = .error (.unsafeCall m) ∧
          Policy.strict.allows m = false) ∧
      (∀ n, outcome Sample.library .strict ⟨Sample.library.preloaded, []⟩ wrapping = .ok n → ∀ more : Policy,
        outcome Sample.library (Policy.strict.extend more) ⟨Sample.library.preloaded, []⟩ wrapping = .ok n) ∧
      (∀ m, outcome Sample.library Policy.strict.allowingAll ⟨Sample.library.preloaded, []⟩ wrapping ≠
        .error (.unsafeCall m)) ∧
      retry Sample.library wrapping wrapping.calls.length .strict ⟨Sample.library.preloaded, []⟩ =
        outcome Sample.library Policy.strict.allowingAll ⟨Sample.library.preloaded, []⟩ wrapping := by
  have hfresh := Names.isFaithful_fresh Sample.library false Sample.library.preloaded
  refine ⟨by decide +kernel, ?_, decode_noninterference hfresh hfresh rfl wrapping⟩
  obtain ⟨n, t, hrun, -⟩ := Action.exists_of_toOption
    (show ((wrapping.decode Sample.library Policy.strict.allowingAll).run
      (beginning ⟨Sample.library.preloaded, []⟩)).1.toOption.map (·.methods.length) = some 1 by decide +kernel)
  exact ⟨n, by rw [outcome, hrun]⟩

end Document

end ExprTree
