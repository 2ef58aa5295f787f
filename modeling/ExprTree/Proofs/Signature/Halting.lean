import ExprTree.Proofs.Signature.Acceptance

/-!
# Where a text stops being a signature

A reader that refuses a text halts before the first character that no
signature could have there: what it took so far can be completed, and with
that character it cannot, whatever comes later. The readers of whole
constructs take the same characters before every other text; only a name and
an integer end by what follows them.
-/

namespace ExprTree

namespace Signature

namespace Grammar

variable {cs rest tail : List Char}

/-- A token is taken after the same blanks from every text that goes on with it. -/
theorem Token.takes {c : Char} (h : Token c cs rest) :
    ∃ pre, cs = pre ++ rest ∧ pre ≠ [] ∧ ∀ tail, Token c (pre ++ tail) tail := by
  induction h with
  | here hc rest => exact ⟨[c], rfl, by simp, fun tail => .here hc tail⟩
  | @blank b cs rest hb _ ih =>
    obtain ⟨pre, rfl, -, htail⟩ := ih
    exact ⟨b :: pre, rfl, by simp, fun tail => .blank hb (htail tail)⟩

end Grammar

open Grammar

namespace Reader

variable {cs rest : List Char}

/-! ## Readers without fuel -/

mutual

/-- Beyond the length of the text, fuel makes no difference. -/
theorem type_fuel : ∀ {fuel fuel' : Nat} {cs : List Char}, cs.length < fuel → cs.length < fuel' →
    type fuel cs = type fuel' cs
  | fuel + 1, fuel' + 1, cs, hfuel, hfuel' => by
    simp only [type]
    refine bind_congr_ok fun c₁ hopening => ?_
    have hlen := (token_eq_ok.mp hopening).length_lt
    split
    · rfl
    · refine bind_congr_ok fun (s, c₂) hname => ?_
      have hlen' := (Grammar.name_eq_ok.mp hname).suffix.length_le
      dsimp only
      split
      · next c₃ hbracket =>
        have hlen'' := (token_of_token? hbracket).length_lt
        rw [type_fuel (show c₃.length < fuel by omega) (show c₃.length < fuel' by omega)]
        refine bind_congr_ok fun (first, c₄) hfirst => ?_
        have hlen''' := ((text_of_type hfirst).suffix looseMarks_suffix).length_le
        dsimp only
        rw [moreTypes_fuel (show c₄.length < fuel by omega) (show c₄.length < fuel' by omega)]
      · rfl

theorem moreTypes_fuel : ∀ {fuel fuel' : Nat} {cs : List Char}, cs.length < fuel → cs.length < fuel' →
    moreTypes fuel cs = moreTypes fuel' cs
  | fuel + 1, fuel' + 1, cs, hfuel, hfuel' => by
    simp only [moreTypes]
    split
    · next c₁ hcomma =>
      have hlen := (token_of_token? hcomma).length_lt
      rw [type_fuel (show c₁.length < fuel by omega) (show c₁.length < fuel' by omega)]
      refine bind_congr_ok fun (first, c₂) hfirst => ?_
      have hlen' := ((text_of_type hfirst).suffix looseMarks_suffix).length_le
      dsimp only
      rw [moreTypes_fuel (show c₂.length < fuel by omega) (show c₂.length < fuel' by omega)]
    · rfl

end

def wholeType : Step TypeSig := fun cs =>
  type (cs.length + 1) cs

/-- Takes one character, after blanks, and yields `a`. -/
def closing {α : Type} (c : Char) (a : α) : Step α := fun cs => do
  let cs ← token c cs
  return (a, cs)

/-- Further types up to the bracket that closes them. -/
def closeTypes : Step (List TypeSig) := fun cs => do
  let (more, cs) ← moreTypes (cs.length + 1) cs
  closing '>' more cs

/-- What stands after a name: its arguments, and the end of the type. -/
def afterName (name : String) : Step TypeSig := fun cs =>
  match token? '<' cs with
  | some cs => do
    let (first, cs) ← wholeType cs
    let (more, cs) ← closeTypes cs
    closeNamed name (first :: more) cs
  | none => closeNamed name [] cs

/-- What stands after the brace that opens a type. -/
def typeBody : Step TypeSig := fun cs =>
  match token? '!' cs with
  | some cs => openParameter cs
  | none => do
    let (name, cs) ← Reader.name .typeName cs
    afterName name cs

theorem wholeType_eq (cs : List Char) : wholeType cs = (closing '\x7b' () cs >>= fun r => typeBody r.2) := by
  simp only [wholeType, type, closing, bind_assoc]
  refine bind_congr_ok fun c₁ hopening => ?_
  have hlen := (token_eq_ok.mp hopening).length_lt
  simp only [pure_eq_ok, ok_bind, typeBody]
  cases token? '!' c₁ with
  | some c₂ => rfl
  | none =>
    refine bind_congr_ok fun r hname => ?_
    obtain ⟨s, c₂⟩ := r
    have hlen' := (Grammar.name_eq_ok.mp hname).suffix.length_le
    simp only [afterName]
    cases hbracket : token? '<' c₂ with
    | none => rfl
    | some c₃ =>
      have hlen'' := (token_of_token? hbracket).length_lt
      simp only [wholeType, type_fuel (show c₃.length < cs.length by omega) (Nat.lt_succ_self c₃.length)]
      refine bind_congr_ok fun r hfirst => ?_
      obtain ⟨first, c₄⟩ := r
      have hlen''' := ((text_of_type hfirst).suffix looseMarks_suffix).length_le
      simp only [closeTypes, closing, bind_assoc, pure_eq_ok, ok_bind,
        moreTypes_fuel (show c₄.length < cs.length by omega) (Nat.lt_succ_self c₄.length)]

theorem closeTypes_next {c₁ : List Char} (hcomma : token? ',' cs = some c₁) :
    closeTypes cs = (wholeType c₁ >>= fun r => closeTypes r.2 >>= fun q => .ok (r.1 :: q.1, q.2)) := by
  have hlen := (token_of_token? hcomma).length_lt
  rw [closeTypes, moreTypes]
  simp only [hcomma, bind_assoc, wholeType,
    type_fuel (show c₁.length < cs.length by omega) (Nat.lt_succ_self c₁.length)]
  refine bind_congr_ok fun r hfirst => ?_
  obtain ⟨first, c₂⟩ := r
  have hlen' := ((text_of_type hfirst).suffix looseMarks_suffix).length_le
  simp only [moreTypes_fuel (show c₂.length < cs.length by omega) (Nat.lt_succ_self c₂.length), closeTypes,
    closing, bind_assoc, pure_eq_ok, ok_bind]

theorem closeTypes_done (hcomma : token? ',' cs = none) : closeTypes cs = closing '>' [] cs := by
  simp only [closeTypes, moreTypes, hcomma, ok_bind]

/-! ## The next character -/

/-- The next character that is no blank. -/
def next? (cs : List Char) : Option Char :=
  (skipBlanks cs).head?

theorem skipBlanks_append {blanks : List Char} (h : ∀ c ∈ blanks, Text.isBlank c = true) (cs : List Char) :
    skipBlanks (blanks ++ cs) = skipBlanks cs :=
  List.dropWhile_append_of_pos h

theorem skipBlanks_of_head (h : ∀ c, cs.head? = some c → Text.isBlank c = false) : skipBlanks cs = cs :=
  Text.dropWhile_of_head h

theorem not_isBlank_of_next? {c : Char} (h : next? cs = some c) : Text.isBlank c = false :=
  Text.head?_dropWhile h

/-- The blanks at the start of a text are also those of any text that goes on with the same character after them. -/
theorem exists_blanks (cs : List Char) : ∃ blanks, cs = blanks ++ skipBlanks cs ∧
    (∀ c ∈ blanks, Text.isBlank c = true) ∧
    ∀ rest, rest.head? = next? cs → skipBlanks (blanks ++ rest) = rest ∧ next? (blanks ++ rest) = next? cs := by
  have hall : ∀ c ∈ cs.takeWhile Text.isBlank, Text.isBlank c = true := fun _ hc => List.mem_takeWhile_imp hc
  refine ⟨cs.takeWhile Text.isBlank, List.takeWhile_append_dropWhile.symm, hall, fun rest hrest => ?_⟩
  have hskip : skipBlanks (cs.takeWhile Text.isBlank ++ rest) = rest := by
    rw [skipBlanks_append hall]
    exact skipBlanks_of_head fun c hc => not_isBlank_of_next? (hrest.symm.trans hc)
  exact ⟨hskip, by rw [next?, hskip, hrest]⟩

theorem next?_of_token {c : Char} (h : Token c cs rest) : next? cs = some c := by
  rw [next?, h.skipBlanks, List.head?_cons]

theorem token?_eq_none {c : Char} : token? c cs = none ↔ next? cs ≠ some c := by
  unfold token? next?
  cases skipBlanks cs with
  | nil => simp
  | cons d rest => by_cases hd : d = c <;> simp [hd]

theorem token_eq_error {c : Char} {e : SyntaxFault} :
    token c cs = .error e ↔ next? cs ≠ some c ∧ e = .unexpected (.token c) (skipBlanks cs) := by
  unfold token next?
  cases skipBlanks cs with
  | nil => simp [eq_comm]
  | cons d rest =>
    by_cases hd : d = c
    · simp [hd]
    · simp [hd, eq_comm (a := e)]

/-! ## Readers that can be told in advance -/

/-- The reader takes the same characters before every text that starts as `ends` says, or halts at a character that no
text could have there: it halts there whatever comes later, and the text before it can be completed. All these texts
start as `starts` says. -/
structure Predicts {α : Type} (starts ends : Option Char → Prop) (step : Step α) (cs : List Char) : Prop where
  takes : ∀ {a rest}, step cs = .ok (a, rest) → ends rest.head? ∧ ∃ pre, cs = pre ++ rest ∧ pre ≠ [] ∧
    ∀ tail, ends tail.head? → starts (next? (pre ++ tail)) ∧ step (pre ++ tail) = .ok (a, tail)
  halts : ∀ {what rest}, step cs = .error (.unexpected what rest) → ∃ pre, cs = pre ++ rest ∧
    (∀ rest', rest'.head? = rest.head? →
      starts (next? (pre ++ rest')) ∧ step (pre ++ rest') = .error (.unexpected what rest')) ∧
    ∃ more a, ∀ tail, ends tail.head? →
      starts (next? (pre ++ more ++ tail)) ∧ step (pre ++ more ++ tail) = .ok (a, tail)

/-- Is there a text that the reader takes, one that starts as `starts` says? -/
def Completes {α : Type} (starts ends : Option Char → Prop) (step : Step α) : Prop :=
  ∃ text a, text ≠ [] ∧ starts text.head? ∧ ∀ tail, ends tail.head? → step (text ++ tail) = .ok (a, tail)

/-- Holds of every next character, and at the end. -/
abbrev Anything (_ : Option Char) : Prop := True

namespace Predicts

variable {α β : Type} {starts starts' ends ends' : Option Char → Prop} {f g : Step α} {pre : List Char}

theorem bind (hf : Predicts starts ends f cs) (k : α → Step β)
    (hk : ∀ a mid, f cs = .ok (a, mid) → Predicts Anything ends' (k a) mid)
    (hdone : ∀ a, Completes ends ends' (k a)) :
    Predicts starts ends' (fun cs => f cs >>= fun r => k r.1 r.2) cs where
  takes := by
    intro b rest h
    obtain ⟨⟨a, mid⟩, hfirst, hsecond⟩ := bind_eq_ok.mp h
    obtain ⟨hmid, p, rfl, -, htake⟩ := hf.takes hfirst
    obtain ⟨hrest, q, rfl, hq, htake'⟩ := (hk a mid hfirst).takes hsecond
    refine ⟨hrest, p ++ q, by simp, by simp [hq], fun tail htail => ?_⟩
    have hhead : (q ++ tail).head? = (q ++ rest).head? := by
      rw [List.head?_append_of_ne_nil _ hq, List.head?_append_of_ne_nil _ hq]
    obtain ⟨hstarts, hstep⟩ := htake (q ++ tail) (hhead ▸ hmid)
    rw [List.append_assoc, hstep]
    exact ⟨hstarts, (htake' tail htail).2⟩
  halts := by
    intro what rest h
    obtain h | ⟨⟨a, mid⟩, hfirst, hsecond⟩ := bind_eq_error.mp h
    · -- the first reader halts: after what completes its text stands a text for the second
      obtain ⟨p, rfl, hfail, more, a, hmore⟩ := hf.halts h
      obtain ⟨text, b, hne, hends, htext⟩ := hdone a
      refine ⟨p, rfl, fun rest' hrest' => ?_, more ++ text, b, fun tail htail => ?_⟩
      · obtain ⟨hstarts, hstep⟩ := hfail rest' hrest'
        rw [hstep]
        exact ⟨hstarts, rfl⟩
      · have hhead : (text ++ tail).head? = text.head? := List.head?_append_of_ne_nil _ hne
        obtain ⟨hstarts, hstep⟩ := hmore (text ++ tail) (hhead ▸ hends)
        simp only [List.append_assoc] at hstarts hstep ⊢
        rw [hstep]
        exact ⟨hstarts, htext tail htail⟩
    · obtain ⟨hmid, p, rfl, -, htake⟩ := hf.takes hfirst
      obtain ⟨q, rfl, hfail, more, b, hmore⟩ := (hk a mid hfirst).halts hsecond
      refine ⟨p ++ q, by simp, fun rest' hrest' => ?_, ?_⟩
      · have hhead : (q ++ rest').head? = (q ++ rest).head? := by rw [List.head?_append, List.head?_append, hrest']
        obtain ⟨hstarts, hstep⟩ := htake (q ++ rest') (hhead ▸ hmid)
        rw [List.append_assoc, hstep]
        exact ⟨hstarts, (hfail rest' hrest').2⟩
      · by_cases hq : q = []
        · -- nothing was read after the first reader, and what completes the text has to let it end
          subst hq
          obtain ⟨text, b, hne, hends, htext⟩ := hdone a
          refine ⟨text, b, fun tail htail => ?_⟩
          have hhead : (text ++ tail).head? = text.head? := List.head?_append_of_ne_nil _ hne
          obtain ⟨hstarts, hstep⟩ := htake (text ++ tail) (hhead ▸ hends)
          rw [List.append_nil, List.append_assoc, hstep]
          exact ⟨hstarts, htext tail htail⟩
        · refine ⟨more, b, fun tail htail => ?_⟩
          have hhead : (q ++ more ++ tail).head? = (q ++ rest).head? := by
            rw [List.append_assoc, List.head?_append_of_ne_nil _ hq, List.head?_append_of_ne_nil _ hq]
          obtain ⟨hstarts, hstep⟩ := htake (q ++ more ++ tail) (hhead ▸ hmid)
          rw [List.append_assoc p, List.append_assoc p, hstep]
          exact ⟨hstarts, (hmore tail htail).2⟩

theorem map (φ : α → β) (hf : Predicts starts ends f cs) :
    Predicts starts ends (fun cs => f cs >>= fun r => .ok (φ r.1, r.2)) cs where
  takes := by
    intro b rest h
    obtain ⟨⟨a, mid⟩, hfirst, hsecond⟩ := bind_eq_ok.mp h
    cases hsecond
    obtain ⟨hrest, p, hcs, hp, htake⟩ := hf.takes hfirst
    refine ⟨hrest, p, hcs, hp, fun tail htail => ?_⟩
    obtain ⟨hstarts, hstep⟩ := htake tail htail
    rw [hstep]
    exact ⟨hstarts, rfl⟩
  halts := by
    intro what rest h
    obtain h | ⟨_, _, h⟩ := bind_eq_error.mp h
    · obtain ⟨p, hcs, hfail, more, a, hmore⟩ := hf.halts h
      refine ⟨p, hcs, fun rest' hrest' => ?_, more, φ a, fun tail htail => ?_⟩
      · obtain ⟨hstarts, hstep⟩ := hfail rest' hrest'
        rw [hstep]
        exact ⟨hstarts, rfl⟩
      · obtain ⟨hstarts, hstep⟩ := hmore tail htail
        rw [hstep]
        exact ⟨hstarts, rfl⟩
    · cases h

/-- The alternative of a reader that a token announces. -/
theorem announced (hf : Predicts starts ends f cs) (hpre : pre ≠ [])
    (h : ∀ tail, starts' (next? (pre ++ tail)) ∧ g (pre ++ tail) = f tail) :
    Predicts starts' ends g (pre ++ cs) where
  takes := by
    intro a rest hg
    rw [(h cs).2] at hg
    obtain ⟨hrest, q, rfl, -, htake⟩ := hf.takes hg
    refine ⟨hrest, pre ++ q, by simp, by simp [hpre], fun tail htail => ?_⟩
    rw [List.append_assoc, (h _).2]
    exact ⟨(h _).1, (htake tail htail).2⟩
  halts := by
    intro what rest hg
    rw [(h cs).2] at hg
    obtain ⟨q, rfl, hfail, more, a, hmore⟩ := hf.halts hg
    refine ⟨pre ++ q, by simp, fun rest' hrest' => ?_, more, a, fun tail htail => ?_⟩
    · rw [List.append_assoc, (h _).2]
      exact ⟨(h _).1, (hfail rest' hrest').2⟩
    · rw [List.append_assoc pre, List.append_assoc pre, (h _).2]
      exact ⟨(h _).1, (hmore tail htail).2⟩

/-- The alternative of a reader that is taken by the next character. -/
theorem otherwise (hf : Predicts starts ends f cs) (hcs : starts (next? cs))
    (h : ∀ cs, starts (next? cs) → starts' (next? cs) ∧ g cs = f cs) : Predicts starts' ends g cs where
  takes := by
    intro a rest hg
    rw [(h cs hcs).2] at hg
    obtain ⟨hrest, q, hcs, hq, htake⟩ := hf.takes hg
    refine ⟨hrest, q, hcs, hq, fun tail htail => ?_⟩
    obtain ⟨hstarts, hstep⟩ := htake tail htail
    exact ⟨(h _ hstarts).1, (h _ hstarts).2.trans hstep⟩
  halts := by
    intro what rest hg
    rw [(h cs hcs).2] at hg
    obtain ⟨q, hcs, hfail, more, a, hmore⟩ := hf.halts hg
    refine ⟨q, hcs, fun rest' hrest' => ?_, more, a, fun tail htail => ?_⟩
    · obtain ⟨hstarts, hstep⟩ := hfail rest' hrest'
      exact ⟨(h _ hstarts).1, (h _ hstarts).2.trans hstep⟩
    · obtain ⟨hstarts, hstep⟩ := hmore tail htail
      exact ⟨(h _ hstarts).1, (h _ hstarts).2.trans hstep⟩

end Predicts

/-! ## Tokens, names and integers -/

/-- Can a name end here? -/
def EndsName (next : Option Char) : Prop :=
  ∀ c, next = some c → isStop c = true

/-- Can an integer end here? -/
def EndsInteger (next : Option Char) : Prop :=
  ∀ c, next = some c → c.isDigit = false

section

variable {α : Type} {c : Char} (hc : Text.isBlank c = false) (a : α) {starts : Option Char → Prop}

theorem closing_eq_ok {a b : α} : closing c a cs = .ok (b, rest) ↔ a = b ∧ Token c cs rest := by
  simp only [closing, bind_eq_ok, token_eq_ok, pure_eq_ok, Except.ok.injEq, Prod.mk.injEq]
  constructor
  · rintro ⟨cs', h, rfl, rfl⟩
    exact ⟨rfl, h⟩
  · rintro ⟨rfl, h⟩
    exact ⟨rest, h, rfl, rfl⟩

include hc

theorem token_of_blanks {blanks : List Char} (h : ∀ b ∈ blanks, Text.isBlank b = true) (cs : List Char) :
    Token c (blanks ++ c :: cs) cs :=
  token_of_skipBlanks (by rw [skipBlanks_append h, skipBlanks_cons hc])

theorem closing_predicts (hstarts : starts (some c)) (hcs : starts (next? cs)) :
    Predicts starts Anything (closing c a) cs where
  takes := by
    intro b rest h
    obtain ⟨rfl, htoken⟩ := closing_eq_ok.mp h
    obtain ⟨pre, hcs, hpre, htail⟩ := htoken.takes
    refine ⟨trivial, pre, hcs, hpre, fun tail _ => ⟨?_, closing_eq_ok.mpr ⟨rfl, htail tail⟩⟩⟩
    rwa [next?_of_token (htail tail)]
  halts := by
    intro what rest h
    obtain h | ⟨_, _, h⟩ := bind_eq_error.mp h
    · obtain ⟨hnext, he⟩ := token_eq_error.mp h
      cases he
      obtain ⟨blanks, hblanks, hall, hlike⟩ := exists_blanks cs
      refine ⟨blanks, hblanks, fun rest' hrest' => ?_, [c], a, fun tail _ => ?_⟩
      · obtain ⟨hskip, hsame⟩ := hlike rest' hrest'
        have hfail : token c (blanks ++ rest') = .error (.unexpected (.token c) rest') :=
          token_eq_error.mpr ⟨hsame ▸ hnext, by rw [hskip]⟩
        rw [hsame, closing, hfail]
        exact ⟨hcs, rfl⟩
      · have htoken : Token c (blanks ++ [c] ++ tail) tail := by
          rw [List.append_assoc]
          exact token_of_blanks hc hall tail
        exact ⟨next?_of_token htoken ▸ hstarts, closing_eq_ok.mpr ⟨rfl, htoken⟩⟩
    · cases h

theorem closing_completes (hstarts : starts (some c)) : Completes starts Anything (closing c a) :=
  ⟨[c], a, by simp, hstarts, fun tail _ => closing_eq_ok.mpr ⟨rfl, .here hc tail⟩⟩

end

theorem eq_nil_of_trimBlanks (h : Text.trimBlanks cs = [])
    (hcs : ∀ c, cs.head? = some c → Text.isBlank c = false) : cs = [] := by
  have hskip : cs.dropWhile Text.isBlank = cs := Text.dropWhile_of_head hcs
  have hall : ∀ c ∈ cs, Text.isBlank c = true := by
    simpa [Text.trimBlanks, Text.trimWhere, hskip, List.dropWhile_eq_nil_iff] using h
  cases cs with
  | nil => rfl
  | cons c cs => exact absurd (hall c (by simp)) (by simp [hcs c rfl])

theorem name_eq_error {what : Expectation} {e : SyntaxFault} (h : name what cs = .error e) :
    EndsName (next? cs) ∧ e = .unexpected what (skipBlanks cs) := by
  unfold name at h
  dsimp only at h
  split at h
  · next hempty =>
    have hrun : (skipBlanks cs).takeWhile (!isStop ·) = [] := by
      refine eq_nil_of_trimBlanks (by simpa using hempty) fun c hc => ?_
      obtain ⟨more, hmore⟩ := List.head?_eq_some_iff.mp hc
      have hfirst : next? cs = some c := by
        rw [next?, ← Text.head?_of_front (List.takeWhile_prefix (!isStop ·)) (by simp [hmore]), hc]
      exact not_isBlank_of_next? hfirst
    have hstop : EndsName (next? cs) := by
      intro c hc
      obtain ⟨more, hmore⟩ := List.head?_eq_some_iff.mp hc
      simpa [hmore] using hrun
    cases h
    refine ⟨hstop, ?_⟩
    rw [Text.dropWhile_of_head fun c hc => by simp [hstop c hc]]
  · cases h

theorem name_missing (what : Expectation) (h : EndsName (next? cs)) :
    name what cs = .error (.unexpected what (skipBlanks cs)) := by
  have hhead : ∀ c, (skipBlanks cs).head? = some c → (!isStop c) = false := fun c hc => by simp [h c hc]
  have htake : ([] ++ skipBlanks cs).takeWhile (!isStop ·) = [] := takeWhile_append_of_end (by simp) hhead
  rw [List.nil_append] at htake
  unfold name
  simp only [htake, Text.dropWhile_of_head hhead]
  rfl

theorem name_predicts {what : Expectation} {starts : Option Char → Prop} (hstarts : starts (some 'x'))
    (hcs : starts (next? cs)) : Predicts starts EndsName (name what) cs where
  takes := by
    intro s rest h
    obtain ⟨run, rfl, hrun, hrest, hs, hne⟩ := Grammar.name_eq_ok.mp h
    refine ⟨hrest, run, rfl, ?_, fun tail htail => ?_⟩
    · rintro rfl
      exact hne (hs ▸ rfl)
    · have hname : name what (run ++ tail) = .ok (s, tail) :=
        Grammar.name_eq_ok.mpr ⟨run, rfl, hrun, htail, hs, hne⟩
      have hsame : next? (run ++ tail) = next? (run ++ rest) :=
        (Reader.name_eq_ok hname).2.symm.trans (Reader.name_eq_ok h).2
      exact ⟨hsame ▸ hcs, hname⟩
  halts := by
    intro found rest h
    obtain ⟨hends, he⟩ := name_eq_error h
    cases he
    obtain ⟨blanks, hblanks, hall, hlike⟩ := exists_blanks cs
    refine ⟨blanks, hblanks, fun rest' hrest' => ?_, ['x'], "x", fun tail htail => ?_⟩
    · obtain ⟨hskip, hsame⟩ := hlike rest' hrest'
      rw [hsame, name_missing what (hsame ▸ hends), hskip]
      exact ⟨hcs, rfl⟩
    · have htrim : Text.trimBlanks (blanks ++ ['x']) = ['x'] := by
        rw [Text.trimBlanks, Text.trimWhere, List.dropWhile_append_of_pos hall]
        rfl
      have hname : name what (blanks ++ ['x'] ++ tail) = .ok ("x", tail) := by
        refine Grammar.name_eq_ok.mpr ⟨blanks ++ ['x'], rfl, fun c hc => ?_, htail, htrim, by decide⟩
        rcases List.mem_append.mp hc with hc | hc
        · exact not_isStop_of_isBlank (hall c hc)
        · rw [List.mem_singleton.mp hc]
          decide
      have hfirst : next? (blanks ++ ['x'] ++ tail) = some 'x' := (Reader.name_eq_ok hname).2.symm
      exact ⟨hfirst ▸ hstarts, hname⟩

theorem integer_of_digits {blanks digits tail : List Char} (hblanks : ∀ c ∈ blanks, Text.isBlank c = true)
    (hdigits : ∀ c ∈ digits, c.isDigit = true) (hne : digits ≠ []) (htail : EndsInteger tail.head?) :
    integer (blanks ++ digits ++ tail) =
      if digits.length > integerDigitLimit then .error .tooManyDigits else .ok (Text.natOfDigits digits, tail) := by
  have hskip : skipBlanks (blanks ++ digits ++ tail) = digits ++ tail := by
    rw [List.append_assoc, skipBlanks_append hblanks]
    refine skipBlanks_of_head fun c hc => ?_
    rw [List.head?_append_of_ne_nil _ hne] at hc
    exact Text.not_isBlank_of_isDigit (hdigits c (List.mem_of_head? hc))
  unfold integer
  simp only [hskip, takeWhile_append_of_end hdigits htail, dropWhile_append_of_end hdigits htail]
  exact if_neg (by simpa using hne)

theorem integer_eq_unexpected {what : Expectation} (h : integer cs = .error (.unexpected what rest)) :
    EndsInteger (next? cs) ∧ what = .integer ∧ rest = skipBlanks cs := by
  unfold integer at h
  dsimp only at h
  split at h
  · next hempty =>
    cases h
    refine ⟨fun c hc => ?_, rfl, rfl⟩
    obtain ⟨more, hmore⟩ := List.head?_eq_some_iff.mp hc
    simpa [hmore] using hempty
  · split at h
    · cases h
    · cases h

theorem integer_missing (h : EndsInteger (next? cs)) : integer cs = .error (.unexpected .integer (skipBlanks cs)) := by
  have hnone : ([] ++ skipBlanks cs).takeWhile Char.isDigit = [] := takeWhile_append_of_end (by simp) h
  rw [List.nil_append] at hnone
  unfold integer
  simp only [hnone]
  rfl

theorem integer_predicts : Predicts Anything EndsInteger integer cs where
  takes := by
    intro n rest h
    obtain ⟨blanks, digits, rfl, hblanks, hdigits, hne, hrest, -⟩ := text_of_integer h
    rw [integer_of_digits hblanks hdigits hne hrest] at h
    split at h
    · cases h
    · next hlen =>
      cases h
      refine ⟨hrest, blanks ++ digits, rfl, by simp [hne], fun tail htail => ⟨trivial, ?_⟩⟩
      rw [integer_of_digits hblanks hdigits hne htail, if_neg hlen]
  halts := by
    intro what rest h
    obtain ⟨hends, rfl, rfl⟩ := integer_eq_unexpected h
    obtain ⟨blanks, hcs, hblanks, hlike⟩ := exists_blanks cs
    refine ⟨blanks, hcs, fun rest' hrest' => ⟨trivial, ?_⟩, ['0'], 0, fun tail htail => ⟨trivial, ?_⟩⟩
    · obtain ⟨hskip, hsame⟩ := hlike rest' hrest'
      rw [integer_missing (hsame ▸ hends), hskip]
    · have hdigit : ∀ c ∈ ['0'], c.isDigit = true := fun c hc => List.mem_singleton.mp hc ▸ rfl
      rw [integer_of_digits hblanks hdigit (by simp) htail]
      rfl

/-! ## Types -/

theorem openParameter_predicts (cs : List Char) : Predicts Anything Anything openParameter cs := by
  have hposition (cs : List Char) :
      Predicts Anything Anything (fun cs => integer cs >>= fun r => closing '\x7d' (TypeSig.parameter r.1) r.2) cs :=
    integer_predicts.bind (fun n => closing '\x7d' (TypeSig.parameter n))
      (fun n mid _ => closing_predicts (by decide) _ trivial trivial)
      fun n => closing_completes (by decide) _ fun c hc => by cases hc; decide
  have hmark : Predicts Anything Anything (closing '!' ()) cs := closing_predicts (by decide) () trivial trivial
  have heq : openParameter = fun cs => closing '!' () cs >>= fun r =>
      integer r.2 >>= fun r => closing '\x7d' (TypeSig.parameter r.1) r.2 := by
    funext cs
    simp only [openParameter, closing, bind_assoc, pure_eq_ok, ok_bind]
  rw [heq]
  exact hmark.bind (fun _ cs => integer cs >>= fun r => closing '\x7d' (TypeSig.parameter r.1) r.2)
    (fun _ mid _ => hposition mid)
    fun _ => ⟨"0\x7d".toList, .parameter 0, by decide, trivial, fun tail _ => rfl⟩

theorem token?_of_token {c : Char} (h : Token c cs rest) : token? c cs = some rest := by
  rw [h.token?_eq, if_pos rfl]

section

variable {starts : Option Char → Prop} {s : String} {arguments : List TypeSig}

theorem closeNamed_predicts (hcomma : starts (some ',')) (hbrace : starts (some '\x7d')) (hcs : starts (next? cs)) :
    Predicts starts Anything (closeNamed s arguments) cs := by
  cases hnext : token? ',' cs with
  | some mid =>
    obtain ⟨pre, rfl, hpre, htail⟩ := (token_of_token? hnext).takes
    have hhint : Predicts Anything Anything
        (fun cs => name .moduleHint cs >>= fun r => closing '\x7d' (TypeSig.named s arguments (some r.1)) r.2) mid :=
      (name_predicts trivial trivial).bind (fun h => closing '\x7d' (TypeSig.named s arguments (some h)))
        (fun h mid _ => closing_predicts (by decide) _ trivial trivial)
        fun h => closing_completes (by decide) _ fun c hc => by cases hc; decide
    refine hhint.announced hpre fun tail => ⟨next?_of_token (htail tail) ▸ hcomma, ?_⟩
    simp only [closeNamed, token?_of_token (htail tail)]
    rfl
  | none =>
    have hnone : next? cs ≠ some ',' ∧ starts (next? cs) := ⟨token?_eq_none.mp hnext, hcs⟩
    have hend : Predicts (fun c => c ≠ some ',' ∧ starts c) Anything
        (closing '\x7d' (TypeSig.named s arguments none)) cs :=
      closing_predicts (by decide) _ ⟨by decide, hbrace⟩ hnone
    refine hend.otherwise hnone fun cs hcs => ⟨hcs.2, ?_⟩
    simp only [closeNamed, token?_eq_none.mpr hcs.1]
    rfl

theorem closeNamed_completes (hbrace : starts (some '\x7d')) : Completes starts Anything (closeNamed s arguments) :=
  ⟨['\x7d'], .named s arguments none, by simp, hbrace, fun tail _ => rfl⟩

end

section

variable (h : ∀ mid : List Char, mid.length < cs.length →
  Predicts Anything Anything wholeType mid ∧ Predicts Anything Anything closeTypes mid)

include h

theorem afterName_predicts (s : String) : Predicts Anything Anything (afterName s) cs := by
  cases hnext : token? '<' cs with
  | some mid =>
    have hlen := (token_of_token? hnext).length_lt
    obtain ⟨pre, rfl, hpre, htail⟩ := (token_of_token? hnext).takes
    have hlist (first : TypeSig) {rest : List Char} (hrest : rest.length ≤ mid.length) :
        Predicts Anything Anything (fun cs => closeTypes cs >>= fun r => closeNamed s (first :: r.1) r.2) rest :=
      (h rest (by omega)).2.bind (fun more => closeNamed s (first :: more))
        (fun more mid _ => closeNamed_predicts trivial trivial trivial)
        fun more => closeNamed_completes trivial
    have hall : Predicts Anything Anything (fun cs => wholeType cs >>= fun r =>
        closeTypes r.2 >>= fun q => closeNamed s (r.1 :: q.1) q.2) mid :=
      (h mid hlen).1.bind (fun first cs => closeTypes cs >>= fun r => closeNamed s (first :: r.1) r.2)
        (fun first rest hfirst => hlist first ((text_of_type hfirst).suffix looseMarks_suffix).length_le)
        fun first => ⟨">\x7d".toList, .named s [first] none, by decide, trivial, fun tail _ => rfl⟩
    refine hall.announced hpre fun tail => ⟨trivial, ?_⟩
    simp only [afterName, token?_of_token (htail tail)]
  | none =>
    have hend : Predicts (· ≠ some '<') Anything (closeNamed s []) cs :=
      closeNamed_predicts (by decide) (by decide) (token?_eq_none.mp hnext)
    refine hend.otherwise (token?_eq_none.mp hnext) fun cs hcs => ⟨trivial, ?_⟩
    simp only [afterName, token?_eq_none.mpr hcs]

theorem typeBody_predicts : Predicts Anything Anything typeBody cs := by
  cases hnext : token? '!' cs with
  | some mid =>
    obtain ⟨pre, rfl, hpre, htail⟩ := (token_of_token? hnext).takes
    refine (openParameter_predicts mid).announced hpre fun tail => ⟨trivial, ?_⟩
    simp only [typeBody, token?_of_token (htail tail)]
  | none =>
    have hname : Predicts (· ≠ some '!') Anything
        (fun cs => name .typeName cs >>= fun r => afterName r.1 r.2) cs := by
      refine (name_predicts (by decide) (token?_eq_none.mp hnext)).bind afterName (fun s mid hname => ?_)
        fun s => ⟨['\x7d'], .named s [] none, by simp, fun c hc => by cases hc; decide, fun tail _ => rfl⟩
      have hlen := (Grammar.name_eq_ok.mp hname).suffix.length_le
      exact afterName_predicts (fun rest hrest => h rest (by omega)) s
    refine hname.otherwise (token?_eq_none.mp hnext) fun cs hcs => ⟨trivial, ?_⟩
    simp only [typeBody, token?_eq_none.mpr hcs]

theorem closeTypes_predicts : Predicts Anything Anything closeTypes cs := by
  cases hnext : token? ',' cs with
  | some mid =>
    have hlen := (token_of_token? hnext).length_lt
    obtain ⟨pre, rfl, hpre, htail⟩ := (token_of_token? hnext).takes
    have hall : Predicts Anything Anything (fun cs => wholeType cs >>= fun r =>
        closeTypes r.2 >>= fun q => .ok (r.1 :: q.1, q.2)) mid := by
      refine (h mid hlen).1.bind (fun first cs => closeTypes cs >>= fun q => .ok (first :: q.1, q.2))
        (fun first rest hfirst => ?_) fun first => ⟨['>'], [first], by simp, trivial, fun tail _ => rfl⟩
      have hlen' := ((text_of_type hfirst).suffix looseMarks_suffix).length_le
      exact (h rest (by omega)).2.map (first :: ·)
    exact hall.announced hpre fun tail => ⟨trivial, closeTypes_next (token?_of_token (htail tail))⟩
  | none =>
    have hend : Predicts (· ≠ some ',') Anything (closing '>' ([] : List TypeSig)) cs :=
      closing_predicts (by decide) _ (by decide) (token?_eq_none.mp hnext)
    exact hend.otherwise (token?_eq_none.mp hnext) fun cs hcs =>
      ⟨trivial, closeTypes_done (token?_eq_none.mpr hcs)⟩

theorem wholeType_predicts_of : Predicts Anything Anything wholeType cs := by
  have hopening : Predicts Anything Anything (closing '\x7b' ()) cs := closing_predicts (by decide) () trivial trivial
  have heq : wholeType = fun cs => closing '\x7b' () cs >>= fun r => typeBody r.2 := funext wholeType_eq
  rw [heq]
  refine hopening.bind (fun _ => typeBody) (fun _ mid hmid => ?_)
    fun _ => ⟨"x\x7d".toList, .named "x" [] none, by decide, trivial, fun tail _ => rfl⟩
  have hlen := (closing_eq_ok.mp hmid).2.length_lt
  exact typeBody_predicts fun rest hrest => h rest (by omega)

end

theorem types_predict (cs : List Char) :
    Predicts Anything Anything wholeType cs ∧ Predicts Anything Anything closeTypes cs := by
  induction hlen : cs.length using Nat.strong_induction_on generalizing cs with
  | _ n ih =>
    have hshorter : ∀ mid : List Char, mid.length < cs.length →
        Predicts Anything Anything wholeType mid ∧ Predicts Anything Anything closeTypes mid :=
      fun mid hmid => ih mid.length (hlen ▸ hmid) mid rfl
    exact ⟨wholeType_predicts_of hshorter, closeTypes_predicts hshorter⟩

end Reader

/-! ## Whole texts -/

/-- Does the text of some type start with these characters? -/
def IsViable (cs : List Char) : Prop :=
  ∃ more s, TypeSig.parse (String.ofList (cs ++ more)) = .ok s

theorem IsViable.mono {cs cs' : List Char} (h : IsViable cs) (hcs : cs' <+: cs) : IsViable cs' := by
  obtain ⟨more, s, hparse⟩ := h
  obtain ⟨rest, rfl⟩ := hcs
  exact ⟨rest ++ more, s, by rwa [← List.append_assoc]⟩

theorem parse_ofList_eq_ok {cs : List Char} {s : TypeSig} :
    TypeSig.parse (String.ofList cs) = .ok s ↔
      ∃ rest, Reader.wholeType cs = .ok (s, rest) ∧ ∀ c ∈ rest, Text.isBlank c = true := by
  rw [TypeSig.parse, Reader.run_eq_ok, String.toList_ofList]
  exact Iff.rfl

/-- Where the reader refuses a text, what it read is viable, and with the next character it is not. -/
theorem viable_of_parse {text : String} {what : Expectation} {rest : List Char}
    (h : TypeSig.parse text = .error (.unexpected what rest)) :
    ∃ pre, text.toList = pre ++ rest ∧ IsViable pre ∧ ∀ c, rest.head? = some c → ¬ IsViable (pre ++ [c]) := by
  obtain ⟨hpredicts, -⟩ := Reader.types_predict text.toList
  obtain h | ⟨⟨s, rest'⟩, hread, h⟩ := bind_eq_error.mp h
  · -- inside the type
    obtain ⟨pre, htext, hfail, more, s, hmore⟩ := hpredicts.halts h
    refine ⟨pre, htext, ⟨more, s, parse_ofList_eq_ok.mpr ⟨[], ?_, by simp⟩⟩, ?_⟩
    · simpa using (hmore [] trivial).2
    · rintro c hc ⟨later, s', hparse⟩
      obtain ⟨_, hread, -⟩ := parse_ofList_eq_ok.mp hparse
      rw [List.append_assoc, List.singleton_append, (hfail (c :: later) (by simp [hc])).2] at hread
      cases hread
  · -- after the type
    obtain ⟨-, pre, htext, -, htake⟩ := hpredicts.takes hread
    obtain ⟨blanks, hblanks, hall, -⟩ := Reader.exists_blanks rest'
    dsimp only at h
    split at h
    · cases h
    · next c cs hskip =>
      cases h
      refine ⟨pre ++ blanks, by rw [htext, List.append_assoc, ← hskip, ← hblanks],
        ⟨[], s, parse_ofList_eq_ok.mpr ⟨blanks, ?_, hall⟩⟩, ?_⟩
      · rw [List.append_nil]
        exact (htake blanks trivial).2
      · rintro d hd ⟨later, s', hparse⟩
        obtain rfl : c = d := by simpa using hd
        obtain ⟨_, hread', hend⟩ := parse_ofList_eq_ok.mp hparse
        rw [List.append_assoc, List.append_assoc, (htake _ trivial).2] at hread'
        cases hread'
        have hblank : Text.isBlank c = false :=
          Reader.not_isBlank_of_next? (by rw [Reader.next?, hskip, List.head?_cons])
        simp [hend c (by simp)] at hblank

/-- A text that is no type is refused at the length of its longest viable prefix. -/
theorem parse_located {text : String} {fault : SyntaxFault} (hshort : HasShortNumbers text.toList)
    (h : TypeSig.parse text = .error fault) :
    ∃ p, fault.position? text = some p ∧ p ≤ text.length ∧ IsViable (text.toList.take p) ∧
      (p < text.length → ¬ IsViable (text.toList.take (p + 1))) ∧
      ∀ q, q ≤ text.length → IsViable (text.toList.take q) → q ≤ p := by
  cases fault with
  | tooManyDigits => exact absurd hshort (Reader.run_refuses Reader.type_refuses h rfl)
  | unexpected what rest =>
    obtain ⟨pre, htext, hviable, hnext⟩ := viable_of_parse h
    have hlen : text.length = pre.length + rest.length := by
      rw [← String.length_toList, htext, List.length_append]
    have hposition : text.length - rest.length = pre.length := by omega
    have hblocked : pre.length < text.length → ¬ IsViable (text.toList.take (pre.length + 1)) := by
      intro hlt
      cases rest with
      | nil => simp at hlen; omega
      | cons c rest =>
        rw [htext, List.take_length_add_append]
        exact hnext c rfl
    have htaken : IsViable (text.toList.take pre.length) := by rwa [htext, List.take_left]
    refine ⟨pre.length, by rw [SyntaxFault.position?, hposition], by omega, htaken, hblocked, fun q hq hq' => ?_⟩
    by_contra hlt
    exact hblocked (by omega) (hq'.mono (List.take_prefix_take_left (by omega)))

theorem parse_located_list :
    HasShortNumbers "\x7ba.B<\x7b!!0\x7d , c\x7d".toList ∧
      ∃ fault, TypeSig.parse "\x7ba.B<\x7b!!0\x7d , c\x7d" = .error fault ∧
      fault.position? "\x7ba.B<\x7b!!0\x7d , c\x7d" = some 13 ∧ IsViable "\x7ba.B<\x7b!!0\x7d , ".toList ∧
      ¬ IsViable "\x7ba.B<\x7b!!0\x7d , c".toList := by
  have hshort : HasShortNumbers "\x7ba.B<\x7b!!0\x7d , c\x7d".toList := hasShortNumbers_of_length (by decide)
  obtain ⟨p, hp, -, hviable, hblocked, -⟩ := parse_located hshort rfl
  obtain rfl : 13 = p := Option.some.inj hp
  exact ⟨hshort, _, rfl, hp, hviable, hblocked (by decide)⟩

end Signature

end ExprTree
