import ExprTree.Proofs.Signature.Grammar

/-!
# Readers and the grammar

What a reader takes is a text of what it returns, and every text is taken if
its numbers are short. The grammar of the readers is the one in which the two
marks of an open parameter are tokens of their own. So a text is refused, with
a place in it, exactly if it has no derivation.
-/

namespace ExprTree.Signature

open Grammar

namespace Reader

variable {cs rest : List Char} {fuel : Nat}

/-! ## What is taken is a text -/

theorem text_of_integer {n : Nat} (h : integer cs = .ok (n, rest)) : Integer n cs rest := by
  unfold integer at h
  dsimp only at h
  split at h
  · cases h
  · next hne =>
    split at h
    · cases h
    · cases h
      refine ⟨cs.takeWhile Text.isBlank, (skipBlanks cs).takeWhile Char.isDigit, ?_, ?_, ?_, ?_, ?_, rfl⟩
      · rw [List.append_assoc, List.takeWhile_append_dropWhile, skipBlanks, List.takeWhile_append_dropWhile]
      · exact fun c hc => List.mem_takeWhile_imp hc
      · exact fun c hc => List.mem_takeWhile_imp hc
      · simpa using hne
      · exact fun c hc => Text.head?_dropWhile hc

theorem text_of_closeNamed {name : String} {arguments : List TypeSig} {s : TypeSig}
    (h : closeNamed name arguments cs = .ok (s, rest)) :
    ∃ hint mid, s = .named name arguments hint ∧ HintText hint cs mid ∧ Token '\x7d' mid rest := by
  unfold closeNamed at h
  split at h
  · next hcomma =>
    obtain ⟨⟨hint, mid⟩, hname, h⟩ := bind_eq_ok.mp h
    obtain ⟨_, hclosing, h⟩ := bind_eq_ok.mp h
    cases h
    exact ⟨some hint, mid, rfl, .present (token_of_token? hcomma) (Grammar.name_eq_ok.mp hname), token_eq_ok.mp hclosing⟩
  · obtain ⟨_, hclosing, h⟩ := bind_eq_ok.mp h
    cases h
    exact ⟨none, cs, rfl, .absent cs, token_eq_ok.mp hclosing⟩

mutual

theorem text_of_type : ∀ {fuel : Nat} {cs rest : List Char} {s : TypeSig},
    type fuel cs = .ok (s, rest) → TypeText looseMarks s cs rest
  | 0, _, _, _, h => by cases h
  | fuel + 1, cs, rest, s, h => by
    obtain ⟨c₁, hopening, h⟩ := bind_eq_ok.mp h
    have opening := token_eq_ok.mp hopening
    split at h
    · -- an open parameter
      next c₂ hmark =>
      obtain ⟨c₃, hmark', h⟩ := bind_eq_ok.mp h
      obtain ⟨⟨position, c₄⟩, hdigits, h⟩ := bind_eq_ok.mp h
      obtain ⟨c₅, hclosing, h⟩ := bind_eq_ok.mp h
      cases h
      exact .parameter opening ⟨c₂, token_of_token? hmark, token_eq_ok.mp hmark'⟩ (text_of_integer hdigits)
        (token_eq_ok.mp hclosing)
    · -- a name, with or without arguments
      next hplain =>
      obtain ⟨⟨name, c₂⟩, hname, h⟩ := bind_eq_ok.mp h
      have hword := isTypeWord_of_name hname hplain
      have word := Grammar.name_eq_ok.mp hname
      dsimp only at h
      split at h
      · next c₃ hbracket =>
        obtain ⟨⟨first, c₄⟩, hfirst, h⟩ := bind_eq_ok.mp h
        obtain ⟨⟨more, c₅⟩, hmore, h⟩ := bind_eq_ok.mp h
        obtain ⟨c₆, hend, h⟩ := bind_eq_ok.mp h
        obtain ⟨hint, c₇, rfl, hinted, closing⟩ := text_of_closeNamed h
        have generic := ArgumentsText.present (token_of_token? hbracket) (text_of_type hfirst)
          (text_of_moreTypes hmore) (token_eq_ok.mp hend)
        exact .named opening word hword.2 generic hinted closing
      · obtain ⟨hint, c₃, rfl, hinted, closing⟩ := text_of_closeNamed h
        exact .named opening word hword.2 (.absent c₂) hinted closing

theorem text_of_moreTypes : ∀ {fuel : Nat} {cs rest : List Char} {ss : List TypeSig},
    moreTypes fuel cs = .ok (ss, rest) → MoreText looseMarks ss cs rest
  | 0, _, _, _, h => by cases h
  | fuel + 1, cs, rest, ss, h => by
    unfold moreTypes at h
    split at h
    · next hcomma =>
      obtain ⟨⟨first, c₁⟩, hfirst, h⟩ := bind_eq_ok.mp h
      obtain ⟨⟨more, c₂⟩, hmore, h⟩ := bind_eq_ok.mp h
      cases h
      exact .next (token_of_token? hcomma) (text_of_type hfirst) (text_of_moreTypes hmore)
    · cases h
      exact .done cs

end

theorem text_of_arity {n : Nat} (h : arity cs = .ok (n, rest)) : ArityText n cs rest := by
  unfold arity at h
  split at h
  · next hopening =>
    obtain ⟨⟨m, c₁⟩, hdigits, h⟩ := bind_eq_ok.mp h
    obtain ⟨c₂, hclosing, h⟩ := bind_eq_ok.mp h
    cases h
    exact .present (token_of_token? hopening) (text_of_integer hdigits) (token_eq_ok.mp hclosing)
  · cases h
    exact .absent cs

theorem text_of_parameters {ss : List TypeSig} (h : parameters fuel cs = .ok (ss, rest)) :
    ∃ mid, ParametersText looseMarks ss cs mid ∧ Token ')' mid rest := by
  unfold parameters at h
  split at h
  · next hclosing =>
    cases h
    exact ⟨cs, .none cs, token_of_token? hclosing⟩
  · obtain ⟨⟨first, c₁⟩, hfirst, h⟩ := bind_eq_ok.mp h
    obtain ⟨⟨more, c₂⟩, hmore, h⟩ := bind_eq_ok.mp h
    obtain ⟨c₃, hclosing, h⟩ := bind_eq_ok.mp h
    cases h
    exact ⟨c₂, .some (text_of_type hfirst) (text_of_moreTypes hmore), token_eq_ok.mp hclosing⟩

theorem text_of_member {s : MemberSig} (h : member fuel cs = .ok (s, rest)) : MemberText looseMarks s cs rest := by
  obtain ⟨⟨name, c₁⟩, hname, h⟩ := bind_eq_ok.mp h
  obtain ⟨⟨n, c₂⟩, harity, h⟩ := bind_eq_ok.mp h
  obtain ⟨c₃, hsign, h⟩ := bind_eq_ok.mp h
  obtain ⟨⟨declaring, c₄⟩, hdeclaring, h⟩ := bind_eq_ok.mp h
  dsimp only at h
  split at h
  · cases h
  · next hnamed =>
    obtain ⟨c₅, hopening, h⟩ := bind_eq_ok.mp h
    obtain ⟨⟨ps, c₆⟩, hparameters, h⟩ := bind_eq_ok.mp h
    cases h
    obtain ⟨mid, list, closing⟩ := text_of_parameters hparameters
    exact .member (Grammar.name_eq_ok.mp hname) (text_of_arity harity) (token_eq_ok.mp hsign)
      (text_of_type hdeclaring) (by simpa using hnamed) (token_eq_ok.mp hopening) list closing

/-! ## Every text is taken -/

theorem integer_of_text {n : Nat} (h : Integer n cs rest) (hshort : HasShortNumbers cs) :
    integer cs = .ok (n, rest) := by
  obtain ⟨digits, hcs, hdigits, hne, hrest, rfl⟩ := h.skipBlanks
  have hinfix : digits <:+: cs := by
    have hfront : digits <:+: skipBlanks cs := hcs ▸ (List.prefix_append digits rest).isInfix
    exact hfront.trans (List.dropWhile_suffix _).isInfix
  have hlen := hshort digits hinfix hdigits
  unfold integer
  simp only [hcs, takeWhile_append_of_end hdigits hrest, dropWhile_append_of_end hdigits hrest]
  simp [hne, Nat.not_lt.mpr hlen]

theorem closeNamed_of_text {hint : Option String} {mid : List Char} (h : HintText hint cs mid)
    (hclosing : Token '\x7d' mid rest) (name : String) (arguments : List TypeSig) :
    closeNamed name arguments cs = .ok (.named name arguments hint, rest) := by
  unfold closeNamed
  cases h with
  | absent =>
    simp only [hclosing.token?_eq ',', token_eq_ok.mpr hclosing, ok_bind]
    rfl
  | present comma word =>
    simp only [comma.token?_eq ',', if_true, Grammar.name_eq_ok.mpr word, token_eq_ok.mpr hclosing, ok_bind]
    rfl

mutual

/-- With fuel for the text, the reader of types takes it. -/
theorem type_of_text : ∀ {s : TypeSig} {cs rest : List Char}, TypeText looseMarks s cs rest → HasShortNumbers cs →
    ∀ {fuel : Nat}, cs.length < fuel → type fuel cs = .ok (s, rest)
  | _, cs, _, .parameter opening ⟨mid, mark, mark'⟩ digits closing, hshort, fuel, hfuel => by
    obtain ⟨fuel, rfl⟩ : ∃ k, fuel = k + 1 := ⟨fuel - 1, by omega⟩
    have hshort' := hshort.mono (mark'.suffix.trans (mark.suffix.trans opening.suffix)).isInfix
    simp only [type, token_eq_ok.mpr opening, ok_bind, mark.token?_eq '!', if_true, openParameter,
      token_eq_ok.mpr mark', integer_of_text digits hshort', token_eq_ok.mpr closing]
    rfl
  | _, cs, _, .named opening word plain generic hinted closing, hshort, fuel, hfuel => by
    obtain ⟨fuel, rfl⟩ : ∃ k, fuel = k + 1 := ⟨fuel - 1, by omega⟩
    simp only [type, token_eq_ok.mpr opening, ok_bind, word.token?_eq_none plain, Grammar.name_eq_ok.mpr word]
    have hstart := word.suffix.trans opening.suffix
    cases generic with
    | absent =>
      simp only [hinted.follow closing]
      exact closeNamed_of_text hinted closing _ _
    | present bracket head tail bracket' =>
      have hhead := bracket.suffix.trans hstart
      have htail := (head.suffix looseMarks_suffix).trans hhead
      have hlen := hstart.length_le
      have hlen' := bracket.length_lt
      have hlen'' := (head.suffix looseMarks_suffix).length_le
      simp only [bracket.token?_eq '<', if_true, ok_bind,
        type_of_text head (hshort.mono hhead.isInfix) (show _ < fuel by omega),
        moreTypes_of_text tail (hshort.mono htail.isInfix) (bracket'.token?_eq ',') (show _ < fuel by omega),
        token_eq_ok.mpr bracket']
      exact closeNamed_of_text hinted closing _ _

theorem moreTypes_of_text : ∀ {ss : List TypeSig} {cs rest : List Char}, MoreText looseMarks ss cs rest →
    HasShortNumbers cs → token? ',' rest = none → ∀ {fuel : Nat}, cs.length < fuel → moreTypes fuel cs = .ok (ss, rest)
  | _, cs, _, .done _, _, hrest, fuel, hfuel => by
    obtain ⟨fuel, rfl⟩ : ∃ k, fuel = k + 1 := ⟨fuel - 1, by omega⟩
    simp only [moreTypes, hrest]
  | _, cs, _, .next comma head tail, hshort, hrest, fuel, hfuel => by
    obtain ⟨fuel, rfl⟩ : ∃ k, fuel = k + 1 := ⟨fuel - 1, by omega⟩
    have hhead := comma.suffix
    have htail := (head.suffix looseMarks_suffix).trans hhead
    have hlen := comma.length_lt
    have hlen' := (head.suffix looseMarks_suffix).length_le
    simp only [moreTypes, comma.token?_eq ',', if_true, ok_bind,
      type_of_text head (hshort.mono hhead.isInfix) (show _ < fuel by omega),
      moreTypes_of_text tail (hshort.mono htail.isInfix) hrest (show _ < fuel by omega)]
    rfl

end

theorem arity_of_text {n : Nat} {mid : List Char} (h : ArityText n cs mid) (hshort : HasShortNumbers cs)
    (hsign : Token '@' mid rest) : arity cs = .ok (n, mid) := by
  unfold arity
  cases h with
  | absent => simp only [hsign.token?_eq '<']; rfl
  | present opening digits closing =>
    simp only [opening.token?_eq '<', if_true, integer_of_text digits (hshort.mono opening.suffix.isInfix),
      token_eq_ok.mpr closing, ok_bind]
    rfl

theorem parameters_of_text {ss : List TypeSig} {mid : List Char} (h : ParametersText looseMarks ss cs mid)
    (hclosing : Token ')' mid rest) (hshort : HasShortNumbers cs) (hfuel : cs.length < fuel) :
    parameters fuel cs = .ok (ss, rest) := by
  unfold parameters
  cases h with
  | none => simp only [hclosing.token?_eq ')', if_true]
  | some head tail =>
    obtain ⟨_, hopens⟩ := head.opens
    have htail := head.suffix looseMarks_suffix
    have hlen := htail.length_le
    simp only [hopens.token?_eq ')', type_of_text head hshort hfuel,
      moreTypes_of_text tail (hshort.mono htail.isInfix) (hclosing.token?_eq ',') (show _ < fuel by omega),
      token_eq_ok.mpr hclosing, ok_bind]
    rfl

theorem member_of_text {s : MemberSig} (h : MemberText looseMarks s cs rest) (hshort : HasShortNumbers cs)
    (hfuel : cs.length < fuel) : member fuel cs = .ok (s, rest) := by
  obtain ⟨word, generic, sign, type, named, opening, list, closing⟩ := h
  have hgeneric := word.suffix
  have htype := sign.suffix.trans (generic.suffix.trans hgeneric)
  have hlist := opening.suffix.trans ((type.suffix looseMarks_suffix).trans htype)
  have hlen := htype.length_le
  have hlen' := hlist.length_le
  unfold member
  simp only [Grammar.name_eq_ok.mpr word, arity_of_text generic (hshort.mono hgeneric.isInfix) sign,
    token_eq_ok.mpr sign, type_of_text type (hshort.mono htype.isInfix) (show _ < fuel by omega), named,
    token_eq_ok.mpr opening, parameters_of_text list closing (hshort.mono hlist.isInfix) (show _ < fuel by omega), ok_bind]
  rfl

/-! ## Only long numbers are refused for their length -/

/-- A number that is too long stands where the reader gives up for its length. -/
def IsRefusal (cs : List Char) (e : SyntaxFault) : Prop :=
  e = .tooManyDigits → ¬ HasShortNumbers cs

theorem IsRefusal.mono {e : SyntaxFault} (h : IsRefusal rest e) (hrest : rest <:+ cs) : IsRefusal cs e :=
  fun he hshort => h he (hshort.mono hrest.isInfix)

theorem isRefusal_unexpected {what : Expectation} {rest : List Char} : IsRefusal cs (.unexpected what rest) := by
  intro he
  cases he

theorem token_refuses {c : Char} {e : SyntaxFault} (h : token c cs = .error e) : IsRefusal cs e := by
  unfold token at h
  split at h
  · split at h
    · cases h
    · cases h
      exact isRefusal_unexpected
  · cases h
    exact isRefusal_unexpected

theorem name_refuses {what : Expectation} {e : SyntaxFault} (h : name what cs = .error e) : IsRefusal cs e := by
  unfold name at h
  dsimp only at h
  split at h
  · cases h
    exact isRefusal_unexpected
  · cases h

theorem integer_refuses {e : SyntaxFault} (h : integer cs = .error e) : IsRefusal cs e := by
  unfold integer at h
  dsimp only at h
  split at h
  · cases h
    exact isRefusal_unexpected
  · split at h
    · next hlong =>
      intro _ hshort
      have hinfix := (List.takeWhile_prefix Char.isDigit (l := skipBlanks cs)).isInfix.trans
        (List.dropWhile_suffix Text.isBlank).isInfix
      have := hshort _ hinfix fun c hc => List.mem_takeWhile_imp hc
      omega
    · cases h

theorem closeNamed_refuses {name : String} {arguments : List TypeSig} {e : SyntaxFault}
    (h : closeNamed name arguments cs = .error e) : IsRefusal cs e := by
  unfold closeNamed at h
  split at h
  · next hcomma =>
    have hsuffix := (token_of_token? hcomma).suffix
    obtain h | ⟨⟨hint, mid⟩, hname, h⟩ := bind_eq_error.mp h
    · exact (name_refuses h).mono hsuffix
    · obtain h | ⟨_, _, h⟩ := bind_eq_error.mp h
      · exact (token_refuses h).mono ((Grammar.name_eq_ok.mp hname).suffix.trans hsuffix)
      · cases h
  · obtain h | ⟨_, _, h⟩ := bind_eq_error.mp h
    · exact token_refuses h
    · cases h

theorem openParameter_refuses {e : SyntaxFault} (h : openParameter cs = .error e) : IsRefusal cs e := by
  obtain h | ⟨c₁, hmark, h⟩ := bind_eq_error.mp h
  · exact token_refuses h
  · have hsuffix := (token_eq_ok.mp hmark).suffix
    obtain h | ⟨⟨position, c₂⟩, hdigits, h⟩ := bind_eq_error.mp h
    · exact (integer_refuses h).mono hsuffix
    · obtain h | ⟨_, _, h⟩ := bind_eq_error.mp h
      · exact (token_refuses h).mono ((text_of_integer hdigits).suffix.trans hsuffix)
      · cases h

mutual

theorem type_refuses : ∀ {fuel : Nat} {cs : List Char} {e : SyntaxFault}, type fuel cs = .error e → IsRefusal cs e
  | 0, _, _, h => by
    cases h
    exact isRefusal_unexpected
  | fuel + 1, cs, e, h => by
    obtain h | ⟨c₁, hopening, h⟩ := bind_eq_error.mp h
    · exact token_refuses h
    have hstart := (token_eq_ok.mp hopening).suffix
    split at h
    · -- an open parameter
      next c₂ hmark => exact (openParameter_refuses h).mono ((token_of_token? hmark).suffix.trans hstart)
    · -- a name, with or without arguments
      obtain h | ⟨⟨name, c₂⟩, hname, h⟩ := bind_eq_error.mp h
      · exact (name_refuses h).mono hstart
      have hrest := (Grammar.name_eq_ok.mp hname).suffix.trans hstart
      dsimp only at h
      split at h
      · next c₃ hbracket =>
        have hfirst := (token_of_token? hbracket).suffix.trans hrest
        obtain h | ⟨⟨first, c₄⟩, hhead, h⟩ := bind_eq_error.mp h
        · exact (type_refuses h).mono hfirst
        have hmore := ((text_of_type hhead).suffix looseMarks_suffix).trans hfirst
        obtain h | ⟨⟨more, c₅⟩, htail, h⟩ := bind_eq_error.mp h
        · exact (moreTypes_refuses h).mono hmore
        have hend := ((text_of_moreTypes htail).suffix looseMarks_suffix).trans hmore
        obtain h | ⟨c₆, hbracket', h⟩ := bind_eq_error.mp h
        · exact (token_refuses h).mono hend
        · exact (closeNamed_refuses h).mono ((token_eq_ok.mp hbracket').suffix.trans hend)
      · exact (closeNamed_refuses h).mono hrest

theorem moreTypes_refuses : ∀ {fuel : Nat} {cs : List Char} {e : SyntaxFault},
    moreTypes fuel cs = .error e → IsRefusal cs e
  | 0, _, _, h => by
    cases h
    exact isRefusal_unexpected
  | fuel + 1, cs, e, h => by
    unfold moreTypes at h
    split at h
    · next hcomma =>
      have hfirst := (token_of_token? hcomma).suffix
      obtain h | ⟨⟨first, c₁⟩, hhead, h⟩ := bind_eq_error.mp h
      · exact (type_refuses h).mono hfirst
      have hmore := ((text_of_type hhead).suffix looseMarks_suffix).trans hfirst
      obtain h | ⟨_, _, h⟩ := bind_eq_error.mp h
      · exact (moreTypes_refuses h).mono hmore
      · cases h
    · cases h

end

theorem arity_refuses {e : SyntaxFault} (h : arity cs = .error e) : IsRefusal cs e := by
  unfold arity at h
  split at h
  · next hopening =>
    have hsuffix := (token_of_token? hopening).suffix
    obtain h | ⟨⟨n, c₁⟩, hdigits, h⟩ := bind_eq_error.mp h
    · exact (integer_refuses h).mono hsuffix
    · obtain h | ⟨_, _, h⟩ := bind_eq_error.mp h
      · exact (token_refuses h).mono ((text_of_integer hdigits).suffix.trans hsuffix)
      · cases h
  · cases h

theorem parameters_refuses {e : SyntaxFault} (h : parameters fuel cs = .error e) : IsRefusal cs e := by
  unfold parameters at h
  split at h
  · cases h
  · obtain h | ⟨⟨first, c₁⟩, hhead, h⟩ := bind_eq_error.mp h
    · exact type_refuses h
    have hmore := (text_of_type hhead).suffix looseMarks_suffix
    obtain h | ⟨⟨more, c₂⟩, htail, h⟩ := bind_eq_error.mp h
    · exact (moreTypes_refuses h).mono hmore
    obtain h | ⟨_, _, h⟩ := bind_eq_error.mp h
    · exact (token_refuses h).mono (((text_of_moreTypes htail).suffix looseMarks_suffix).trans hmore)
    · cases h

theorem member_refuses {e : SyntaxFault} (h : member fuel cs = .error e) : IsRefusal cs e := by
  obtain h | ⟨⟨name, c₁⟩, hname, h⟩ := bind_eq_error.mp h
  · exact name_refuses h
  have hrest := (Grammar.name_eq_ok.mp hname).suffix
  obtain h | ⟨⟨n, c₂⟩, harity, h⟩ := bind_eq_error.mp h
  · exact (arity_refuses h).mono hrest
  have hsign := (text_of_arity harity).suffix.trans hrest
  obtain h | ⟨c₃, hat, h⟩ := bind_eq_error.mp h
  · exact (token_refuses h).mono hsign
  have htype := (token_eq_ok.mp hat).suffix.trans hsign
  obtain h | ⟨⟨declaring, c₄⟩, hdeclaring, h⟩ := bind_eq_error.mp h
  · exact (type_refuses h).mono htype
  have hopens := ((text_of_type hdeclaring).suffix looseMarks_suffix).trans htype
  dsimp only at h
  split at h
  · cases h
    exact isRefusal_unexpected
  · obtain h | ⟨c₅, hopening, h⟩ := bind_eq_error.mp h
    · exact (token_refuses h).mono hopens
    obtain h | ⟨_, _, h⟩ := bind_eq_error.mp h
    · exact (parameters_refuses h).mono ((token_eq_ok.mp hopening).suffix.trans hopens)
    · cases h

/-! ## Whole texts -/

theorem run_eq_ok {α : Type} {step : Nat → Step α} {text : String} {a : α} :
    run step text = .ok a ↔
      ∃ rest, step (text.toList.length + 1) text.toList = .ok (a, rest) ∧ ∀ c ∈ rest, Text.isBlank c = true := by
  unfold run
  rw [bind_eq_ok]
  constructor
  · rintro ⟨⟨result, rest⟩, hstep, h⟩
    dsimp only at h
    split at h
    · next hend =>
      cases h
      exact ⟨rest, hstep, List.dropWhile_eq_nil_iff.mp hend⟩
    · cases h
  · rintro ⟨rest, hstep, hrest⟩
    refine ⟨(a, rest), hstep, ?_⟩
    have hend : skipBlanks rest = [] := List.dropWhile_eq_nil_iff.mpr hrest
    simp only [hend]
    rfl

theorem run_refuses {α : Type} {step : Nat → Step α} {text : String} {e : SyntaxFault}
    (hstep : ∀ {fuel cs e}, step fuel cs = .error e → IsRefusal cs e) (h : run step text = .error e) :
    IsRefusal text.toList e := by
  obtain h | ⟨⟨result, rest⟩, -, h⟩ := bind_eq_error.mp h
  · exact hstep h
  · dsimp only at h
    split at h
    · cases h
    · cases h
      exact isRefusal_unexpected

end Reader

/-! ## Exact reading -/

/-- A reader takes the texts that derive from a grammar, refuses all others at a place in them, and no text derives
from it in two ways. -/
structure IsExact {α : Type} (parse : String → Except SyntaxFault α) (derives : α → String → Prop) : Prop where
  accepts : ∀ text a, HasShortNumbers text.toList → (parse text = .ok a ↔ derives a text)
  refuses : ∀ text, HasShortNumbers text.toList → (∀ a, ¬ derives a text) →
    ∃ what rest, parse text = .error (.unexpected what rest)
  unique : ∀ text a b, derives a text → derives b text → a = b

theorem isExact_run {α : Type} {step : Nat → Reader.Step α} {text : α → List Char → List Char → Prop}
    (hsound : ∀ {fuel cs rest a}, step fuel cs = .ok (a, rest) → text a cs rest)
    (hcomplete : ∀ {fuel cs rest a}, text a cs rest → HasShortNumbers cs → cs.length < fuel → step fuel cs = .ok (a, rest))
    (hrefuses : ∀ {fuel cs e}, step fuel cs = .error e → Reader.IsRefusal cs e)
    (hunique : ∀ {cs rest rest' a b}, text a cs rest → text b cs rest' → a = b) :
    IsExact (Reader.run step) (Whole text) := by
  have haccepts : ∀ s a, HasShortNumbers s.toList → (Reader.run step s = .ok a ↔ Whole text a s) := by
    intro s a hshort
    rw [Reader.run_eq_ok]
    constructor
    · rintro ⟨rest, hstep, hrest⟩
      exact ⟨rest, hsound hstep, hrest⟩
    · rintro ⟨rest, htext, hrest⟩
      exact ⟨rest, hcomplete htext hshort (by omega), hrest⟩
  refine ⟨haccepts, ?_, ?_⟩
  · intro s hshort hnone
    cases hrun : Reader.run step s with
    | ok a => exact absurd ((haccepts s a hshort).mp hrun) (hnone a)
    | error e =>
      cases e with
      | unexpected what rest => exact ⟨what, rest, rfl⟩
      | tooManyDigits => exact absurd hshort (Reader.run_refuses hrefuses hrun rfl)
  · rintro s a b ⟨_, ha, -⟩ ⟨_, hb, -⟩
    exact hunique ha hb

theorem TypeSig.parse_isExact : IsExact TypeSig.parse (TypeSig.Derives looseMarks) :=
  isExact_run Reader.text_of_type (fun h hshort hfuel => Reader.type_of_text h hshort hfuel) Reader.type_refuses
    fun h h' => (h.unique looseMarks_isMark h').1

theorem MemberSig.parse_isExact : IsExact MemberSig.parse (MemberSig.Derives looseMarks) :=
  isExact_run Reader.text_of_member Reader.member_of_text Reader.member_refuses
    fun h h' => (h.unique looseMarks_isMark h').1

/-- The readers take exactly the grammar, and what is written of a legal signature is read as it. -/
theorem parse_exact :
    (IsExact TypeSig.parse (TypeSig.Derives looseMarks) ∧ ∀ s : TypeSig, s.IsLegal → TypeSig.parse s.render = .ok s) ∧
      IsExact MemberSig.parse (MemberSig.Derives looseMarks) ∧
        ∀ s : MemberSig, s.IsLegal → MemberSig.parse s.render = .ok s :=
  ⟨⟨TypeSig.parse_isExact, fun _ => TypeSig.parse_render⟩, MemberSig.parse_isExact, fun _ => MemberSig.parse_render⟩

theorem hasShortNumbers_of_length {cs : List Char} (h : cs.length ≤ integerDigitLimit) : HasShortNumbers cs :=
  fun _ hdigits _ => hdigits.length_le.trans h

theorem parse_exact_padded :
    TypeSig.Derives looseMarks (.named "a.B" [.named "c D" [] none, .parameter 12] (some "a"))
        "\x7b a.B<\x7bc D\x7d , \x7b!!12\x7d>\t, a \x7d " ∧
      MemberSig.Derives looseMarks ⟨"m", 1, .named "a.B" [] none, [.parameter 0]⟩ "m<1> @\x7ba.B\x7d(\x7b! !0\x7d)" ∧
      (∃ what rest, TypeSig.parse "" = .error (.unexpected what rest)) ∧
      TypeSig.parse (TypeSig.parameter 1).render = .ok (.parameter 1) := by
  refine ⟨(parse_exact.1.1.accepts _ _ (hasShortNumbers_of_length (by decide))).mp rfl,
    (parse_exact.2.1.accepts _ _ (hasShortNumbers_of_length (by decide))).mp rfl,
    parse_exact.1.1.refuses _ (hasShortNumbers_of_length (by decide)) ?_, parse_exact.1.2 _ (lt_digitBound (Nat.le_refl 1))⟩
  rintro s ⟨_, htext, -⟩
  obtain ⟨_, hopening⟩ := htext.opens
  cases hopening

/-- Blanks may stand between the two marks, also where the marks are one token of the grammar. -/
theorem parse_parted_marks :
    HasShortNumbers "\x7b! !0\x7d".toList ∧ TypeSig.parse "\x7b! !0\x7d" = .ok (.parameter 0) ∧
      ∀ s, ¬ TypeSig.Derives joinedMarks s "\x7b! !0\x7d" := by
  refine ⟨hasShortNumbers_of_length (by decide), rfl, ?_⟩
  rintro s ⟨rest, htext, -⟩
  have hopening : Token '\x7b' "\x7b! !0\x7d".toList "! !0\x7d".toList := .here (by decide) _
  have hmark : Token '!' "! !0\x7d".toList " !0\x7d".toList := .here (by decide) _
  cases htext with
  | parameter opening marked =>
    obtain ⟨-, rfl⟩ := hopening.unique opening
    have := (hmark.unique marked).2
    simp at this
  | named opening word plain =>
    obtain ⟨-, rfl⟩ := hopening.unique opening
    have := hmark.token?_eq '!'
    rw [word.token?_eq_none plain] at this
    simp at this

end ExprTree.Signature
