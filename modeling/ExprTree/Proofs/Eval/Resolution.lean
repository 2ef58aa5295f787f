import ExprTree.Proofs.Eval.Positions
import ExprTree.Proofs.Eval.Scoping

/-!
# Chains of scopes are lexical

An expression does in a frame what it does when its parameters are resolved in
the numbers that the frame binds. A function keeps the frame it was created in,
and scopes only ever change what they hold, so this stays true of it wherever it
goes and whenever it is called; and calls of functions, one after the other, have
the results that they have by position.
-/

namespace ExprTree

open Node (Scope)
open Run

variable {α β : Type} {host : Host} {apply apply' : Apply} {h k : Heap} {frame : Frame} {scope : Scope}

/-! ## Frames -/

/-- Are the scopes of a frame in the heap, and are these the numbers they bind? -/
structure Frame.Spans (h : Heap) (frame : Frame) (scope : Scope) : Prop where
  isIn : frame.IsIn h
  numbers : frame.numbers h = scope

theorem Frame.Spans.mono (hf : frame.Spans h scope) (hk : h.Keeps k) : frame.Spans k scope :=
  ⟨hf.isIn.mono hk, (hf.isIn.numbers hk).trans hf.numbers⟩

instance : Persists fun h _ => Frame.Spans h frame scope :=
  ⟨fun hf hk _ => hf.mono hk⟩

namespace Lexical

/-- Does a computation end as one by positions does, as long as the frame binds the scope? -/
abbrev RelatedIn (frame : Frame) (scope : Scope) (x y : Run α) : Prop :=
  Likeness.positions.RelatedWhile (fun h _ => Frame.Spans h frame scope) x y

namespace RelatedIn

theorem read (p : Parameter) :
    RelatedIn frame scope (readParameter frame p) (Lexical.read frame (p.placed (scope.idxOf p.number))) := by
  rintro h _ ⟨hh, rfl⟩ hspans
  have hlike : Likeness.positions.heaps h h.resolved := ⟨hh, rfl⟩
  have hfound : (cell? h.resolved frame (scope.idxOf p.number)).bind (content? h.resolved) =
      frame.lookup? h p.number := by
    rw [← hspans.numbers, cell?_idxOf, Option.bind_map, Frame.lookup?]
    exact Option.bind_congr fun a _ => content?_idxOf h a p.number
  unfold readParameter Lexical.read
  refine .get ?_
  dsimp only [Parameter.placed]
  rw [hfound]
  cases frame.lookup? h p.number with
  | some v => exact .ok (.refl hlike)
  | none => exact .throw hlike rfl

theorem write (p : Parameter) (v : Value) :
    RelatedIn frame scope (writeParameter frame p v)
      (Lexical.write frame (p.placed (scope.idxOf p.number)) v) := by
  rintro h _ ⟨hh, rfl⟩ hspans
  have hlike : Likeness.positions.heaps h h.resolved := ⟨hh, rfl⟩
  have hcell : cell? h.resolved frame (scope.idxOf p.number) =
      (frame.scopeOf? h p.number).map fun a => (a, (h.keys a).idxOf p.number) := by
    rw [← hspans.numbers, cell?_idxOf]
  unfold writeParameter Lexical.write
  refine .get ?_
  dsimp only [Parameter.placed]
  rw [hcell]
  cases hscope : frame.scopeOf? h p.number with
  | none => exact .throw hlike rfl
  | some a =>
    have hmem : p.number ∈ h.keys a := any_iff_mem_keys.mp (by simpa using List.find?_some hscope)
    obtain ⟨hbinds, hkeeps, hupdate⟩ := update_idxOf hh hmem v
    exact .ok ⟨⟨hbinds, hupdate⟩, hkeeps, hupdate ▸ hkeeps.resolved⟩

/-- The scope that is opened binds its parameters in front of what the frame binds. -/
theorem opened {f g : Frame → Run β} {ps : List Parameter} {vs : List Value} (hnodup : (ps.map (·.number)).Nodup)
    (hlength : vs.length = ps.length)
    (hf : ∀ frame', RelatedIn frame' (ps.map (·.number) ++ scope) (f frame') (g frame')) :
    RelatedIn frame scope (Run.opened frame ps vs >>= f) (Lexical.opened frame vs >>= g) := by
  rintro h _ ⟨hh, rfl⟩ hspans
  have hkeys := keys_zip ps vs hlength
  have hvalues := values_zip ps vs hlength
  have hrun := Frame.run_opened h frame ps vs
  generalize (ps.zip vs).map _ = bs at hkeys hvalues hrun
  have hpositions : bs.map (fun b => (0, b.2)) = vs.map fun v => (0, v) := by
    rw [← hvalues, List.map_map]
    rfl
  have hbinds : Cell.BindsOnce h (.scope bs) := by
    rw [Cell.BindsOnce, hkeys]
    exact hnodup
  have hkeeps : h.Keeps (h.add (.scope bs)).2 := Heap.keeps_add _
  have hadd := hh.resolved_add hbinds
  rw [Cell.resolved, hpositions] at hadd
  have haddress : (h.resolved.add (.scope (vs.map fun v => (0, v)))).1 = (h.add (.scope bs)).1 :=
    h.looks_resolved.size.symm
  have hrun' : (Lexical.opened frame vs).run h.resolved =
      (.ok ((h.add (.scope bs)).1 :: frame), (h.add (.scope bs)).2.resolved) := by
    rw [hadd, ← haddress]
    rfl
  have hspans' : Frame.Spans (h.add (.scope bs)).2 ((h.add (.scope bs)).1 :: frame) (ps.map (·.number) ++ scope) := by
    refine ⟨fun a ha => ?_, ?_⟩
    · obtain rfl | ha := List.mem_cons.mp ha
      · simp [Heap.add]
      · exact hspans.isIn.mono hkeeps a ha
    · rw [Frame.numbers, List.flatMap_cons, Heap.keys_add_self, Cell.keys, hkeys, ← Frame.numbers,
        (hspans.mono hkeeps).numbers]
  have hend := hf _ _ _ ⟨hh.add hbinds, rfl⟩ hspans'
  have hgrows : Likeness.positions.Grows h h.resolved (h.add (.scope bs)).2 (h.add (.scope bs)).2.resolved :=
    ⟨⟨hh.add hbinds, rfl⟩, hkeeps, hkeeps.resolved⟩
  rw [Action.run_bind_ok hrun, Action.run_bind_ok hrun']
  exact .after hgrows hend

/-- The function remembers the frame, and is resolved in what the frame binds. -/
theorem function {ps : List Parameter} {body : Node} (hnodup : (ps.map (·.number)).Nodup) (hbody : body.BindsOnce) :
    RelatedIn frame scope (alloc (.function ps body frame))
      (alloc (.function (ps.map Parameter.nameless) (body.resolve (ps.map (·.number) ++ scope)) frame)) := by
  rintro h _ ⟨hh, rfl⟩ hspans
  have hbinds : Cell.BindsOnce h (.function ps body frame) := ⟨hnodup, hbody, hspans.isIn⟩
  have hadd := hh.resolved_add hbinds
  rw [Cell.resolved, hspans.numbers] at hadd
  generalize hc : Cell.function ps body frame = c at hadd hbinds
  generalize hc' : Cell.function (ps.map Parameter.nameless) _ frame = c' at hadd
  have haddress : (h.resolved.add c').1 = (h.add c).1 := h.looks_resolved.size.symm
  rw [show (alloc c).run h = (.ok (.ref (h.add c).1), (h.add c).2) from rfl,
    show (alloc c').run h.resolved = (.ok (.ref (h.resolved.add c').1), (h.resolved.add c').2) from rfl, haddress]
  exact .ok ⟨⟨hh.add hbinds, hadd.symm⟩, Heap.keeps_add c, Heap.keeps_add c'⟩

end RelatedIn

end Lexical

/-! ## Expressions -/

namespace Node

open Lexical (RelatedIn)

theorem type_resolve : ∀ (n : Node) (scope : Scope), (n.resolve scope).type = n.type
  | .constant .., _ | .parameter _, _ | .binary .., _ | .unary .., _ | .member .., _ | .call .., _ | .callOn .., _
  | .bare .., _ => rfl
  | .lambda ps body, scope => by
    rw [resolve, type, type, type_resolve body, List.map_map]
    rfl
  | .converted _ right _ _, scope => type_resolve right scope
  | .conditional _ ifTrue _, scope => type_resolve ifTrue scope

mutual

/-- An expression does in a frame what it does by position, resolved in the numbers that the frame binds. -/
theorem eval_resolved (hhost : host.IsUniform) (happly : Likeness.positions.Applies apply apply') :
    ∀ (n : Node), n.BindsOnce → ∀ (frame : Frame) (scope : Scope),
      RelatedIn frame scope (Node.eval host apply frame n) (Lexical.eval host apply' frame (n.resolve scope))
  | .constant v _, _, _, _ => .pure v
  | .parameter p, _, _, _ => .read p
  | .lambda ps body, hn, _, _ =>
    have hboth : (ps.map (·.number)).Nodup ∧ body.BindsOnce := by simpa [parts] using bindsOnce_iff.mp hn
    .function hboth.1 hboth.2
  | .binary k left right t, hn, frame, scope => by
    obtain ⟨hr, hl⟩ : right.BindsOnce ∧ left.BindsOnce := by simpa [parts] using bindsOnce_iff.mp hn
    have hleft := eval_resolved hhost happly left hl frame scope
    have hright := eval_resolved hhost happly right hr frame scope
    have hassign := assign_resolved hhost happly left hl frame scope
    cases k with
    | binary k =>
      simp only [Node.eval, resolve, Lexical.eval]
      cases k with
      | assign => exact hright.bind fun v => (hassign v).bind fun _ => .pure v
      | compound o =>
        exact hleft.bind fun old => hright.bind fun w => (operate_uniform o t old w).within.bind fun v =>
          (hassign v).bind fun _ => .pure v
      | andAlso =>
        exact hleft.bind fun v => (isTrue_uniform v).within.bind fun _ => .ite
          (hright.bind fun w => (isTrue_uniform w).within.bind fun _ => .pure _) (.pure _)
      | orElse =>
        exact hleft.bind fun v => (isTrue_uniform v).within.bind fun _ => .ite (.pure _)
          (hright.bind fun w => (isTrue_uniform w).within.bind fun _ => .pure _)
      | coalesce => exact hleft.bind fun v => .ite hright (.pure v)
      | operation o =>
        rw [type_resolve]
        exact hleft.bind fun v => hright.bind fun w => (operate_uniform o left.type v w).within
      | equal => exact hleft.bind fun v => hright.bind fun w => (equal_uniform v w).within.bind fun _ => .pure _
      | notEqual => exact hleft.bind fun v => hright.bind fun w => (equal_uniform v w).within.bind fun _ => .pure _
      | ordering o => exact hleft.bind fun v => hright.bind fun w => (ordered_uniform o v w).within.bind fun _ => .pure _
    | _ => exact .host _
  | .converted left right p body, hn, frame, scope => by
    obtain ⟨hr, hl, hb⟩ : right.BindsOnce ∧ left.BindsOnce ∧ body.BindsOnce := by
      simpa [parts] using bindsOnce_iff.mp hn
    rw [Node.eval, resolve, Lexical.eval]
    refine (eval_resolved hhost happly left hl frame _).bind fun v =>
      .ite (eval_resolved hhost happly right hr frame _) ?_
    have hlength : [v].length = [p].length := rfl
    refine RelatedIn.opened (by simp) hlength fun frame' => ?_
    exact eval_resolved hhost happly body hb frame' _
  | .unary k operand t, hn, frame, scope => by
    have ho : operand.BindsOnce := by simpa [parts] using bindsOnce_iff.mp hn
    cases k with
    | unary k =>
      simp only [Node.eval, resolve, Lexical.eval, type_resolve]
      refine (eval_resolved hhost happly operand ho frame _).bind fun old => ?_
      refine (unaryValue_uniform _ k _ t old).within.bind fun v => ?_
      cases k with
      | step s => exact (assign_resolved hhost happly operand ho frame _ v).bind fun _ => .pure _
      | _ => exact .pure v
    | _ => exact .host _
  | .member e m, hn, frame, _ =>
    have he : e.BindsOnce := by simpa [parts] using bindsOnce_iff.mp hn
    (eval_resolved hhost happly e he frame _).bind fun v => (hhost.read m v).within
  | .call m args, hn, frame, _ =>
    have hargs : ∀ a ∈ args, a.BindsOnce := by simpa [parts] using bindsOnce_iff.mp hn
    (evalAll_resolved hhost happly args hargs frame _).bind fun vs => (hhost.call happly m _ vs).within
  | .callOn target m args, hn, frame, _ =>
    have hboth : target.BindsOnce ∧ ∀ a ∈ args, a.BindsOnce := by simpa [parts] using bindsOnce_iff.mp hn
    (eval_resolved hhost happly target hboth.1 frame _).bind fun v =>
      (evalAll_resolved hhost happly args hboth.2 frame _).bind fun vs => (hhost.call happly m v vs).within
  | .conditional test ifTrue ifFalse, hn, frame, _ =>
    have hall : test.BindsOnce ∧ ifTrue.BindsOnce ∧ ifFalse.BindsOnce := by
      simpa [parts] using bindsOnce_iff.mp hn
    (eval_resolved hhost happly test hall.1 frame _).bind fun v => (isTrue_uniform v).within.bind fun _ =>
      .ite (eval_resolved hhost happly ifTrue hall.2.1 frame _) (eval_resolved hhost happly ifFalse hall.2.2 frame _)
  | .bare .., _, _, _ => .host _

theorem evalAll_resolved (hhost : host.IsUniform) (happly : Likeness.positions.Applies apply apply') :
    ∀ (ns : List Node), (∀ n ∈ ns, n.BindsOnce) → ∀ (frame : Frame) (scope : Scope),
      RelatedIn frame scope (Node.evalAll host apply frame ns) (Lexical.evalAll host apply' frame (resolveAll scope ns))
  | [], _, _, _ => .pure []
  | n :: ns, hns, frame, _ =>
    (eval_resolved hhost happly n (hns n List.mem_cons_self) frame _).bind fun v =>
      (evalAll_resolved hhost happly ns (fun m hm => hns m (List.mem_cons_of_mem n hm)) frame _).bind fun vs =>
        .pure (v :: vs)

theorem assign_resolved (hhost : host.IsUniform) (happly : Likeness.positions.Applies apply apply') :
    ∀ (n : Node), n.BindsOnce → ∀ (frame : Frame) (scope : Scope) (v : Value),
      RelatedIn frame scope (Node.assign host apply frame n v) (Lexical.assign host apply' frame (n.resolve scope) v)
  | .parameter p, _, _, _, v => .write p v
  | .member e m, hn, frame, _, v =>
    have he : e.BindsOnce := by simpa [parts] using bindsOnce_iff.mp hn
    (eval_resolved hhost happly e he frame _).bind fun w => (hhost.write m w v).within
  | .constant .., _, _, _, _ | .lambda .., _, _, _, _ | .binary .., _, _, _, _ | .converted .., _, _, _, _
  | .unary .., _, _, _, _ | .call .., _, _, _, _ | .callOn .., _, _, _, _ | .conditional .., _, _, _, _
  | .bare .., _, _, _, _ => .host _

end

end Node

/-! ## Functions -/

namespace Lexical

theorem applyAt_resolved (hhost : host.IsUniform) (depth : Nat) :
    Likeness.positions.Applies (host.applyAt depth) (applyAt host depth) := by
  induction depth with
  | zero => exact fun _ _ => .host _
  | succ depth ih =>
    intro f vs
    cases f with
    | ref a =>
      rintro h _ ⟨hh, rfl⟩ _
      have hlike : Likeness.positions.heaps h h.resolved := ⟨hh, rfl⟩
      unfold Host.applyAt applyAt
      refine .get ?_
      rw [Heap.get?_resolved]
      cases hc : h.get? a with
      | none => exact .throw hlike rfl
      | some c =>
        cases c with
        | function ps body frame =>
          obtain ⟨hnodup, hbody, hframe⟩ := hh a _ hc
          by_cases hlength : vs.length = ps.length
          · have hcall : RelatedIn frame (Frame.numbers h frame)
                (Run.opened frame ps vs >>= fun frame' => Node.eval host (host.applyAt depth) frame' body)
                (opened frame vs >>= fun frame' => eval host (applyAt host depth) frame'
                  (body.resolve (ps.map (·.number) ++ Frame.numbers h frame))) :=
              .opened hnodup hlength fun frame' => Node.eval_resolved hhost ih body hbody frame' _
            simpa [Cell.resolved, hlength] using hcall h _ hlike ⟨hframe, rfl⟩
          · simp only [Option.map_some, Cell.resolved, List.length_map, ne_eq, hlength, not_false_eq_true, if_true]
            exact .throw hlike rfl
        | _ => exact .throw hlike rfl
    | _ => exact .host _

end Lexical

/-! ## Sequences of calls -/

/-- A run by position is the run in a chain of scopes, result and heap. -/
theorem Likeness.RelatedWhile.run_resolved {x y : Run α} (hxy : positions.Related x y) (hh : h.BindsOnce) :
    (x.run h).2.BindsOnce ∧ y.run h.resolved = ((x.run h).1, (x.run h).2.resolved) := by
  have hend := hxy h h.resolved ⟨hh, rfl⟩ trivial
  generalize x.run h = r, y.run h.resolved = r' at hend ⊢
  cases hend with
  | ok hk => exact ⟨hk.heaps.1, by rw [hk.heaps.2]⟩
  | error hk he => exact ⟨hk.heaps.1, by rw [hk.heaps.2, show _ = _ from he]⟩

theorem Apply.results_resolved (happly : Likeness.positions.Applies apply apply') (hh : h.BindsOnce)
    (calls : List (Value × List Value)) :
    apply'.results h.resolved calls = ((apply.results h calls).1, (apply.results h calls).2.resolved) := by
  induction calls generalizing h with
  | nil => rfl
  | cons call calls ih =>
    obtain ⟨hk, hrun⟩ := (happly call.1 call.2).run_resolved hh
    simp only [results, hrun, ih hk]

/-! ## Who sees an assignment -/

namespace Frame

theorem scopeOf?_eq_find? (h : Heap) (frame : Frame) (number : Nat) :
    frame.scopeOf? h number = frame.find? fun a => number ∈ h.keys a := by
  refine congrArg (List.find? · frame) (funext fun a => ?_)
  rw [Bool.eq_iff_iff, Lexical.any_iff_mem_keys, decide_eq_true_iff]

theorem keys_after_rebind (h : Heap) (a number : Nat) (v : Value) : (rebind h a number v).keys = h.keys := by
  funext b
  rw [← keys_bindings, ← keys_bindings, bindings_rebind]
  split
  · next heq => rw [heq, keys_rebind]
  · rfl

theorem lookup_rebind (bs : List (Nat × Value)) (number other : Nat) (v : Value) :
    (bs.map fun b => if b.1 = number then (number, v) else b).lookup other =
      if other = number then (bs.lookup number).map fun _ => v else bs.lookup other := by
  induction bs with
  | nil => simp
  | cons b bs ih =>
    obtain ⟨key, w⟩ := b
    rw [List.map_cons, List.lookup_cons, ih, List.lookup_cons, List.lookup_cons]
    by_cases hother : other = key
    · subst hother
      by_cases hsame : other = number <;> simp [hsame]
    · have hbeq : (other == key) = false := beq_false_of_ne hother
      by_cases hkey : key = number
      · subst hkey
        simp [hother, hbeq]
      · by_cases hsame : other = number
        · subst hsame
          simp [hkey, hbeq]
        · simp [hkey, hsame, hbeq]

/-- The numbers that are found in the same scope, and no others, are found changed. -/
theorem lookup?_rebind {a number : Nat} (hmem : number ∈ h.keys a) (v : Value) (frame : Frame) (other : Nat) :
    frame.lookup? (rebind h a number v) other =
      if other = number ∧ frame.scopeOf? h other = some a then some v else frame.lookup? h other := by
  have hscope : frame.scopeOf? (rebind h a number v) other = frame.scopeOf? h other := by
    rw [scopeOf?_eq_find?, scopeOf?_eq_find?, keys_after_rebind]
  rw [Frame.lookup?, Frame.lookup?, hscope]
  cases hfound : frame.scopeOf? h other with
  | none => simp
  | some b =>
    rw [Option.bind_some, Option.bind_some, bindings_rebind]
    by_cases hb : b = a
    · subst hb
      rw [← keys_bindings] at hmem
      obtain ⟨w, hw⟩ := lookup_isSome hmem
      rw [if_pos rfl, lookup_rebind, hw]
      simp
    · simp [hb]

/-- Is a scope that one invocation opened in front of a frame its own, now and later? -/
structure IsOwnScope (h k : Heap) (frame : Frame) (ps : List Parameter) (a : Nat) : Prop where
  /-- No function that was there before remembers it. -/
  fresh : ∀ b qs body other, h.get? b = some (.function qs body other) → a ∉ other
  /-- A function created in the invocation finds the parameters there, unless a scope further inside binds them. -/
  found : ∀ m, k.Keeps m → ∀ p ∈ ps, ∀ inner : Frame, (∀ b ∈ inner, p.number ∉ m.keys b) →
    scopeOf? m (inner ++ a :: frame) p.number = some a
  /-- No later invocation opens it again. -/
  once : ∀ m, k.Keeps m → ∀ other qs ws, ((Run.opened other qs ws).run m).1 ≠ .ok (a :: other)

theorem exists_ownScope (hh : h.BindsOnce) (frame : Frame) {ps : List Parameter} {vs : List Value}
    (hlength : vs.length = ps.length) :
    ∃ a k, (Run.opened frame ps vs).run h = (.ok (a :: frame), k) ∧ IsOwnScope h k frame ps a := by
  have hkeys := keys_zip ps vs hlength
  have hrun := run_opened h frame ps vs
  generalize (ps.zip vs).map _ = bs at hkeys hrun
  have hsize : (h.add (.scope bs)).2.cells.size = h.cells.size + 1 := Array.size_push _
  have haddress : (h.add (.scope bs)).1 = h.cells.size := rfl
  refine ⟨_, _, hrun, fun b qs body other hb hmem => ?fresh, fun m hm p hp inner hinner => ?found,
    fun m hm other qs ws hopened => ?once⟩
  case fresh => exact absurd ((hh b _ hb).2.2 _ hmem) (Nat.lt_irrefl _)
  case found =>
    have hbound : p.number ∈ m.keys (h.add (.scope bs)).1 := by
      rw [hm.keys _ (by omega), Heap.keys_add_self, Cell.keys, hkeys]
      exact List.mem_map_of_mem hp
    rw [scopeOf?_eq_find?, List.find?_append, List.find?_eq_none.mpr (by simpa using hinner),
      List.find?_cons_of_pos (by simpa using hbound)]
    rfl
  case once =>
    -- a scope that is opened later has a later address
    rw [run_opened] at hopened
    have hsame : m.cells.size = h.cells.size := (List.cons.inj (Except.ok.inj hopened)).1
    have hlater := hm.size
    omega

theorem lookup?_of_write {p : Parameter} {v : Value} (hrun : (writeParameter frame p v).run h = (.ok ⟨⟩, k))
    (other : Frame) (number : Nat) :
    other.lookup? k number =
      if number = p.number ∧ other.scopeOf? h number = frame.scopeOf? h p.number then some v
      else other.lookup? h number := by
  unfold writeParameter at hrun
  rw [Action.run_bind_ok (Action.run_get h)] at hrun
  cases hscope : frame.scopeOf? h p.number with
  | none =>
    rw [hscope] at hrun
    cases hrun
  | some a =>
    rw [hscope] at hrun
    cases hrun
    exact lookup?_rebind (Lexical.any_iff_mem_keys.mp (by simpa using List.find?_some hscope)) v other number

end Frame

/-! ## Lexical scoping -/

namespace Node

variable {l : Library} {n : Node}

theorem results_resolved (hhost : host.IsUniform) (hn : n.BindsOnce) (hh : h.BindsOnce)
    (calls : List (Value × List Value)) :
    Lexical.results host n calls h.resolved = ((host.results n calls h).1, (host.results n calls h).2.resolved) := by
  have happly := Lexical.applyAt_resolved hhost Host.callDepth
  have heval : Likeness.positions.Related (host.eval n)
      (Lexical.eval host (Lexical.applyAt host Host.callDepth) [] (n.resolve [])) := fun h h' hh _ =>
    -- outside of all lambdas there is no scope, and nothing is bound
    eval_resolved hhost happly n hn [] [] h h' hh ⟨fun a ha => by simp at ha, rfl⟩
  obtain ⟨hk, hrun⟩ := heval.run_resolved hh
  simp only [Lexical.results, Host.results, Apply.resultsAfter, hrun, Apply.results_resolved happly hk]
  rfl

/-- A tree of the builders, and any calls after it, give what they give by position. Every invocation has a scope of
its own, and what is assigned is found by who finds the parameter in the same scope, and by nobody else. -/
theorem scoping_lexical (hhost : host.IsUniform) (hn : n.IsMade l) (hh : h.BindsOnce)
    (calls : List (Value × List Value)) :
    Lexical.results host n calls h.resolved = ((host.results n calls h).1, (host.results n calls h).2.resolved) ∧
      (∀ (k : Heap) (frame : Frame) (ps : List Parameter) (vs : List Value), k.BindsOnce → vs.length = ps.length →
        ∃ a m, (Run.opened frame ps vs).run k = (.ok (a :: frame), m) ∧ Frame.IsOwnScope k m frame ps a) ∧
      ∀ (k m : Heap) (frame : Frame) (p : Parameter) (v : Value),
        (writeParameter frame p v).run k = (.ok ⟨⟩, m) → ∀ (other : Frame) (number : Nat), other.lookup? m number =
          if number = p.number ∧ other.scopeOf? k number = frame.scopeOf? k p.number then some v
          else other.lookup? k number :=
  ⟨results_resolved hhost (hn.bindsOnce n) hh calls,
    fun _ frame _ _ hk hlength => Frame.exists_ownScope hk frame hlength,
    fun _ _ _ _ _ hrun => Frame.lookup?_of_write hrun⟩

/-- The accumulator below a lambda that binds the amount already. -/
def rebound : Node :=
  .lambda [amount] accumulator

/-- Two totals from one compiled function: what is added to one is not added to the other, and the amount that is added
is that of the inner lambda. -/
theorem scoping_lexical_rebound :
    (Lexical.results Sample.host rebound [(.ref 0, [.int 100]), (.ref 2, [.int 1]), (.ref 2, [.int 10]),
      (.ref 4, [.int 2]), (.ref 6, [.int 5]), (.ref 4, [.int 3])] Heap.empty).1 =
      [.ok (.ref 0), .ok (.ref 2), .ok (.ref 4), .ok (.ref 6), .ok (.int 3), .ok (.int 15), .ok (.int 6)] := by
  have hmade : rebound.IsMade Sample.library :=
    .lambda isMade_accumulator (mkLambda_eq_ok.mpr ⟨[amount], rfl, rfl, rfl⟩)
  have hsame := (scoping_lexical Sample.host_isUniform hmade Heap.bindsOnce_empty [(.ref 0, [.int 100]),
    (.ref 2, [.int 1]), (.ref 2, [.int 10]), (.ref 4, [.int 2]), (.ref 6, [.int 5]), (.ref 4, [.int 3])]).1
  have hempty : Heap.empty.resolved = Heap.empty := by simp [Heap.resolved, Heap.empty]
  rw [← hempty, hsame]
  rfl

end Node

end ExprTree
