import ExprTree.Proofs.Signature.Legality

/-!
# The grammar of signatures

The texts of a signature, said without a reader: a judgment `G a cs rest` says
that `cs` starts with a text of `a` and goes on with `rest`. Blanks may stand
before every token, and a text has one signature at most (`TypeText.unique`).
The grammar has two forms, with the marks `!!` of an open parameter as one token
or as two; the second derives all that the first does.
-/

namespace ExprTree.Signature

open Text (isBlank trimBlanks natOfDigits)

namespace Grammar

/-! ## Tokens -/

/-- The character `c`, after any blanks. -/
inductive Token (c : Char) : List Char → List Char → Prop where
  | here (hc : isBlank c = false) (rest : List Char) : Token c (c :: rest) rest
  | blank {b : Char} {cs rest : List Char} (hb : isBlank b = true) (h : Token c cs rest) : Token c (b :: cs) rest

/-- A name is all that stands before the next character that ends names, without the blanks around it. -/
def Name (s : String) (cs rest : List Char) : Prop :=
  ∃ run, cs = run ++ rest ∧ (∀ c ∈ run, Reader.isStop c = false) ∧ (∀ c, rest.head? = some c → Reader.isStop c = true) ∧
    trimBlanks run = s.toList ∧ s.toList ≠ []

/-- An integer is a whole run of digits, after any blanks. -/
def Integer (n : Nat) (cs rest : List Char) : Prop :=
  ∃ blanks digits, cs = blanks ++ digits ++ rest ∧ (∀ c ∈ blanks, isBlank c = true) ∧
    (∀ c ∈ digits, c.isDigit = true) ∧ digits ≠ [] ∧ (∀ c, rest.head? = some c → c.isDigit = false) ∧
    natOfDigits digits = n

/-! ## Marks of an open parameter -/

/-- The two marks as one token. -/
def joinedMarks (cs rest : List Char) : Prop :=
  Token '!' cs ('!' :: rest)

/-- The two marks as tokens of their own, each after any blanks. -/
def looseMarks (cs rest : List Char) : Prop :=
  ∃ mid, Token '!' cs mid ∧ Token '!' mid rest

/-! ## Types and members -/

/-- The package after its comma, if there is one. -/
inductive HintText : Option String → List Char → List Char → Prop where
  | absent (cs : List Char) : HintText none cs cs
  | present {hint : String} {cs mid rest : List Char} (comma : Token ',' cs mid) (name : Name hint mid rest) :
    HintText (some hint) cs rest

section

variable (marks : List Char → List Char → Prop)

mutual

inductive TypeText : TypeSig → List Char → List Char → Prop where
  | parameter {position : Nat} {c₀ c₁ c₂ c₃ c₄ : List Char} (opening : Token '\x7b' c₀ c₁) (marked : marks c₁ c₂)
    (digits : Integer position c₂ c₃) (closing : Token '\x7d' c₃ c₄) : TypeText (.parameter position) c₀ c₄
  | named {name : String} {arguments : List TypeSig} {hint : Option String} {c₀ c₁ c₂ c₃ c₄ c₅ : List Char}
    (opening : Token '\x7b' c₀ c₁) (word : Name name c₁ c₂) (plain : name.toList.head? ≠ some '!')
    (generic : ArgumentsText arguments c₂ c₃) (hinted : HintText hint c₃ c₄) (closing : Token '\x7d' c₄ c₅) :
    TypeText (.named name arguments hint) c₀ c₅

/-- Arguments in their brackets; no brackets stand around none. -/
inductive ArgumentsText : List TypeSig → List Char → List Char → Prop where
  | absent (cs : List Char) : ArgumentsText [] cs cs
  | present {first : TypeSig} {more : List TypeSig} {c₀ c₁ c₂ c₃ c₄ : List Char} (opening : Token '<' c₀ c₁)
    (head : TypeText first c₁ c₂) (tail : MoreText more c₂ c₃) (closing : Token '>' c₃ c₄) :
    ArgumentsText (first :: more) c₀ c₄

/-- Further types, each after a comma. -/
inductive MoreText : List TypeSig → List Char → List Char → Prop where
  | done (cs : List Char) : MoreText [] cs cs
  | next {s : TypeSig} {ss : List TypeSig} {c₀ c₁ c₂ c₃ : List Char} (comma : Token ',' c₀ c₁)
    (head : TypeText s c₁ c₂) (tail : MoreText ss c₂ c₃) : MoreText (s :: ss) c₀ c₃

end

/-- The parameters of a method, without their parentheses. -/
inductive ParametersText : List TypeSig → List Char → List Char → Prop where
  | none (cs : List Char) : ParametersText [] cs cs
  | some {first : TypeSig} {more : List TypeSig} {c₀ c₁ c₂ : List Char} (head : TypeText marks first c₀ c₁)
    (tail : MoreText marks more c₁ c₂) : ParametersText (first :: more) c₀ c₂

/-- The number of generic parameters in its brackets; no brackets mean zero. -/
inductive ArityText : Nat → List Char → List Char → Prop where
  | absent (cs : List Char) : ArityText 0 cs cs
  | present {n : Nat} {c₀ c₁ c₂ c₃ : List Char} (opening : Token '<' c₀ c₁) (digits : Integer n c₁ c₂)
    (closing : Token '>' c₂ c₃) : ArityText n c₀ c₃

/-- No open parameter can declare a method. -/
inductive MemberText : MemberSig → List Char → List Char → Prop where
  | member {name : String} {arity : Nat} {declaring : TypeSig} {parameters : List TypeSig}
    {c₀ c₁ c₂ c₃ c₄ c₅ c₆ c₇ : List Char} (word : Name name c₀ c₁) (generic : ArityText arity c₁ c₂)
    (sign : Token '@' c₂ c₃) (type : TypeText marks declaring c₃ c₄) (named : declaring.isNamed = true)
    (opening : Token '(' c₄ c₅) (list : ParametersText marks parameters c₅ c₆) (closing : Token ')' c₆ c₇) :
    MemberText ⟨name, arity, declaring, parameters⟩ c₀ c₇

end

/-- Is the whole text one of `a`, but for blanks at its end? -/
def Whole {α : Type} (text : α → List Char → List Char → Prop) (a : α) (s : String) : Prop :=
  ∃ rest, text a s.toList rest ∧ ∀ c ∈ rest, isBlank c = true

end Grammar

/-- Is the text a type of the grammar? -/
def TypeSig.Derives (marks : List Char → List Char → Prop) : TypeSig → String → Prop :=
  Grammar.Whole (Grammar.TypeText marks)

/-- Is the text a method of the grammar? -/
def MemberSig.Derives (marks : List Char → List Char → Prop) : MemberSig → String → Prop :=
  Grammar.Whole (Grammar.MemberText marks)

/-- No run of digits is longer than a number may be. -/
def HasShortNumbers (cs : List Char) : Prop :=
  ∀ digits, digits <:+: cs → (∀ c ∈ digits, c.isDigit = true) → digits.length ≤ integerDigitLimit

theorem HasShortNumbers.mono {cs rest : List Char} (h : HasShortNumbers cs) (hrest : rest <:+: cs) :
    HasShortNumbers rest :=
  fun digits hdigits => h digits (hdigits.trans hrest)

/-! ## Tokens as they are read -/

namespace Grammar

variable {cs rest mid : List Char} {c d : Char}

theorem takeWhile_append_of_end {p : Char → Bool} {run rest : List Char} (hrun : ∀ c ∈ run, p c = true)
    (hrest : ∀ c, rest.head? = some c → p c = false) : (run ++ rest).takeWhile p = run := by
  rw [List.takeWhile_append_of_pos hrun]
  cases rest with
  | nil => simp
  | cons c rest => simp [hrest c rfl]

theorem dropWhile_append_of_end {p : Char → Bool} {run rest : List Char} (hrun : ∀ c ∈ run, p c = true)
    (hrest : ∀ c, rest.head? = some c → p c = false) : (run ++ rest).dropWhile p = rest := by
  rw [List.dropWhile_append_of_pos hrun]
  exact Text.dropWhile_of_head hrest

theorem Token.skipBlanks (h : Token c cs rest) : Reader.skipBlanks cs = c :: rest := by
  induction h with
  | here hc rest => exact Reader.skipBlanks_cons hc rest
  | blank hb _ ih => rwa [Reader.skipBlanks, List.dropWhile_cons_of_pos hb]

theorem token_of_skipBlanks (h : Reader.skipBlanks cs = c :: rest) : Token c cs rest := by
  induction cs with
  | nil => simp [Reader.skipBlanks] at h
  | cons b cs ih =>
    by_cases hb : isBlank b = true
    · rw [Reader.skipBlanks, List.dropWhile_cons_of_pos hb] at h
      exact .blank hb (ih h)
    · rw [Bool.not_eq_true] at hb
      rw [Reader.skipBlanks_cons hb] at h
      obtain ⟨rfl, rfl⟩ := List.cons_eq_cons.mp h
      exact .here hb cs

theorem token_eq_ok : Reader.token c cs = .ok rest ↔ Token c cs rest := by
  constructor
  · intro h
    unfold Reader.token at h
    split at h
    · next d more hskip =>
      by_cases hd : d = c
      · subst hd
        rw [if_pos rfl] at h
        cases h
        exact token_of_skipBlanks hskip
      · simp [hd] at h
    · cases h
  · intro h
    simp [Reader.token, h.skipBlanks]

theorem Token.token?_eq (h : Token c cs rest) (d : Char) :
    Reader.token? d cs = if c = d then some rest else none := by
  simp [Reader.token?, h.skipBlanks]

theorem token_of_token? (h : Reader.token? c cs = some rest) : Token c cs rest := by
  unfold Reader.token? at h
  split at h
  · next d more hskip =>
    by_cases hd : d = c
    · subst hd
      rw [if_pos rfl] at h
      cases h
      exact token_of_skipBlanks hskip
    · simp [hd] at h
  · cases h

theorem Token.unique (h : Token c cs rest) (h' : Token d cs mid) : c = d ∧ rest = mid := by
  have := h.skipBlanks.symm.trans h'.skipBlanks
  simpa using this

theorem Token.cons_suffix (h : Token c cs rest) : c :: rest <:+ cs :=
  h.skipBlanks ▸ List.dropWhile_suffix isBlank

theorem Token.suffix (h : Token c cs rest) : rest <:+ cs :=
  (List.suffix_cons c rest).trans h.cons_suffix

theorem Token.length_lt (h : Token c cs rest) : rest.length < cs.length :=
  h.cons_suffix.length_le

theorem not_isStop_of_isBlank (h : isBlank c = true) : Reader.isStop c = false := by
  rw [Bool.eq_false_iff]
  intro hstop
  have hmem : c ∈ ['<', '>', '(', ')', '\x7b', '\x7d', '@', ','] := List.contains_iff_mem.mp hstop
  simp only [List.mem_cons, List.not_mem_nil, or_false] at hmem
  rcases hmem with rfl | rfl | rfl | rfl | rfl | rfl | rfl | rfl <;> simp [isBlank] at h

/-! ## Names and integers as they are read -/

theorem takeWhile_skipBlanks (cs : List Char) :
    trimBlanks ((Reader.skipBlanks cs).takeWhile (!Reader.isStop ·)) = trimBlanks (cs.takeWhile (!Reader.isStop ·)) := by
  induction cs with
  | nil => rfl
  | cons b cs ih =>
    by_cases hb : isBlank b = true
    · have hstop := not_isStop_of_isBlank hb
      rw [Reader.skipBlanks, List.dropWhile_cons_of_pos hb, ← Reader.skipBlanks, ih]
      simp [hstop, trimBlanks, Text.trimWhere, hb]
    · rw [Reader.skipBlanks_cons (Bool.not_eq_true _ ▸ hb)]

theorem dropWhile_skipBlanks (cs : List Char) :
    (Reader.skipBlanks cs).dropWhile (!Reader.isStop ·) = cs.dropWhile (!Reader.isStop ·) := by
  induction cs with
  | nil => rfl
  | cons b cs ih =>
    by_cases hb : isBlank b = true
    · have hstop := not_isStop_of_isBlank hb
      rw [Reader.skipBlanks, List.dropWhile_cons_of_pos hb, ← Reader.skipBlanks, ih]
      simp [hstop]
    · rw [Reader.skipBlanks_cons (Bool.not_eq_true _ ▸ hb)]

theorem name_eq_ok {what : Expectation} {s : String} : Reader.name what cs = .ok (s, rest) ↔ Name s cs rest := by
  unfold Reader.name
  simp only [takeWhile_skipBlanks, dropWhile_skipBlanks]
  constructor
  · intro h
    split at h
    · cases h
    · next hne =>
      cases h
      refine ⟨cs.takeWhile (!Reader.isStop ·), List.takeWhile_append_dropWhile.symm, fun c hc => ?_, fun c hc => ?_, ?_, ?_⟩
      · simpa using List.mem_takeWhile_imp hc
      · simpa using Text.head?_dropWhile hc
      · rw [String.toList_ofList]
      · simpa using hne
  · rintro ⟨run, rfl, hrun, hrest, hs, hne⟩
    have hrun' : ∀ c ∈ run, (!Reader.isStop c) = true := fun c hc => by simp [hrun c hc]
    have hrest' : ∀ c, rest.head? = some c → (!Reader.isStop c) = false := fun c hc => by simp [hrest c hc]
    rw [takeWhile_append_of_end hrun' hrest', dropWhile_append_of_end hrun' hrest', hs]
    simp [hne]

theorem Name.unique {s s' : String} (h : Name s cs rest) (h' : Name s' cs mid) : s = s' ∧ rest = mid := by
  have : Reader.name .memberName cs = .ok (s, rest) := name_eq_ok.mpr h
  rw [name_eq_ok.mpr h'] at this
  cases this
  exact ⟨rfl, rfl⟩

theorem Name.suffix {s : String} (h : Name s cs rest) : rest <:+ cs := by
  obtain ⟨run, rfl, -⟩ := h
  exact List.suffix_append run rest

/-- A name starts where the blanks end. -/
theorem Name.token?_eq_none {s : String} (h : Name s cs rest) (hplain : s.toList.head? ≠ some '!') :
    Reader.token? '!' cs = none := by
  have hread : Reader.name .typeName cs = .ok (s, rest) := name_eq_ok.mpr h
  rw [(Reader.name_eq_ok hread).2] at hplain
  unfold Reader.token?
  split
  · next d more hskip =>
    have hd : d ≠ '!' := by simpa [hskip] using hplain
    rw [if_neg hd]
  · rfl

theorem Integer.skipBlanks {n : Nat} (h : Integer n cs rest) :
    ∃ digits, Reader.skipBlanks cs = digits ++ rest ∧ (∀ c ∈ digits, c.isDigit = true) ∧ digits ≠ [] ∧
      (∀ c, rest.head? = some c → c.isDigit = false) ∧ natOfDigits digits = n := by
  obtain ⟨blanks, digits, rfl, hblanks, hdigits, hne, hrest, hn⟩ := h
  refine ⟨digits, ?_, hdigits, hne, hrest, hn⟩
  rw [Reader.skipBlanks, List.append_assoc, List.dropWhile_append_of_pos hblanks]
  refine Text.dropWhile_of_head fun c hc => ?_
  rw [List.head?_append_of_ne_nil _ hne] at hc
  exact Text.not_isBlank_of_isDigit (hdigits c (List.mem_of_head? hc))

theorem Integer.unique {n n' : Nat} (h : Integer n cs rest) (h' : Integer n' cs mid) : n = n' ∧ rest = mid := by
  obtain ⟨digits, hcs, hdigits, -, hrest, rfl⟩ := h.skipBlanks
  obtain ⟨digits', hcs', hdigits', -, hmid, rfl⟩ := h'.skipBlanks
  have htake := takeWhile_append_of_end hdigits hrest
  have hdrop := dropWhile_append_of_end hdigits hrest
  rw [← hcs, hcs', takeWhile_append_of_end hdigits' hmid] at htake
  rw [← hcs, hcs', dropWhile_append_of_end hdigits' hmid] at hdrop
  exact ⟨by rw [htake], hdrop.symm⟩

theorem Integer.suffix {n : Nat} (h : Integer n cs rest) : rest <:+ cs := by
  obtain ⟨blanks, digits, rfl, -⟩ := h
  exact List.suffix_append _ _

/-! ## What follows a text -/

section

variable {marks : List Char → List Char → Prop}

theorem HintText.suffix {hint : Option String} (h : HintText hint cs rest) : rest <:+ cs := by
  cases h with
  | absent => exact List.suffix_rfl
  | present comma name => exact name.suffix.trans comma.suffix

theorem ArityText.suffix {n : Nat} (h : ArityText n cs rest) : rest <:+ cs := by
  cases h with
  | absent => exact List.suffix_rfl
  | present opening digits closing => exact closing.suffix.trans (digits.suffix.trans opening.suffix)

mutual

theorem TypeText.suffix (hmarks : ∀ {cs rest}, marks cs rest → rest <:+ cs) :
    ∀ {s : TypeSig} {cs rest : List Char}, TypeText marks s cs rest → rest <:+ cs
  | _, _, _, .parameter opening marked digits closing =>
    closing.suffix.trans (digits.suffix.trans ((hmarks marked).trans opening.suffix))
  | _, _, _, .named opening word _ generic hinted closing =>
    closing.suffix.trans (hinted.suffix.trans ((generic.suffix hmarks).trans (word.suffix.trans opening.suffix)))

theorem ArgumentsText.suffix (hmarks : ∀ {cs rest}, marks cs rest → rest <:+ cs) :
    ∀ {ss : List TypeSig} {cs rest : List Char}, ArgumentsText marks ss cs rest → rest <:+ cs
  | _, _, _, .absent _ => List.suffix_rfl
  | _, _, _, .present opening head tail closing =>
    closing.suffix.trans ((tail.suffix hmarks).trans ((head.suffix hmarks).trans opening.suffix))

theorem MoreText.suffix (hmarks : ∀ {cs rest}, marks cs rest → rest <:+ cs) :
    ∀ {ss : List TypeSig} {cs rest : List Char}, MoreText marks ss cs rest → rest <:+ cs
  | _, _, _, .done _ => List.suffix_rfl
  | _, _, _, .next comma head tail => (tail.suffix hmarks).trans ((head.suffix hmarks).trans comma.suffix)

end

theorem looseMarks_suffix (h : looseMarks cs rest) : rest <:+ cs := by
  obtain ⟨mid, h, h'⟩ := h
  exact h'.suffix.trans h.suffix

end

/-! ## One token for the marks, or two -/

section

variable {marks marks' : List Char → List Char → Prop}

mutual

theorem TypeText.mono (hmarks : ∀ {cs rest}, marks cs rest → marks' cs rest) :
    ∀ {s : TypeSig} {cs rest : List Char}, TypeText marks s cs rest → TypeText marks' s cs rest
  | _, _, _, .parameter opening marked digits closing => .parameter opening (hmarks marked) digits closing
  | _, _, _, .named opening word plain generic hinted closing =>
    .named opening word plain (generic.mono hmarks) hinted closing

theorem ArgumentsText.mono (hmarks : ∀ {cs rest}, marks cs rest → marks' cs rest) :
    ∀ {ss : List TypeSig} {cs rest : List Char}, ArgumentsText marks ss cs rest → ArgumentsText marks' ss cs rest
  | _, _, _, .absent cs => .absent cs
  | _, _, _, .present opening head tail closing => .present opening (head.mono hmarks) (tail.mono hmarks) closing

theorem MoreText.mono (hmarks : ∀ {cs rest}, marks cs rest → marks' cs rest) :
    ∀ {ss : List TypeSig} {cs rest : List Char}, MoreText marks ss cs rest → MoreText marks' ss cs rest
  | _, _, _, .done cs => .done cs
  | _, _, _, .next comma head tail => .next comma (head.mono hmarks) (tail.mono hmarks)

end

theorem MemberText.mono (hmarks : ∀ {cs rest}, marks cs rest → marks' cs rest) {s : MemberSig}
    (h : MemberText marks s cs rest) : MemberText marks' s cs rest := by
  obtain ⟨word, generic, sign, type, named, opening, list, closing⟩ := h
  refine .member word generic sign (type.mono hmarks) named opening ?_ closing
  cases list with
  | none => exact .none _
  | some head tail => exact .some (head.mono hmarks) (tail.mono hmarks)

theorem looseMarks_of_joinedMarks (h : joinedMarks cs rest) : looseMarks cs rest :=
  ⟨_, h, .here (by decide) rest⟩

end

/-! ## One signature for a text -/

section

variable {marks : List Char → List Char → Prop}

/-- After the arguments comes no opening bracket. -/
theorem HintText.follow {hint : Option String} (h : HintText hint cs mid) (hclosing : Token '\x7d' mid rest) :
    Reader.token? '<' cs = none := by
  cases h with
  | absent => exact hclosing.token?_eq '<'
  | present comma _ => exact comma.token?_eq '<'

theorem HintText.unique {hint hint' : Option String} {mid' rest' : List Char} (h : HintText hint cs mid)
    (hclosing : Token '\x7d' mid rest) (h' : HintText hint' cs mid') (hclosing' : Token '\x7d' mid' rest') :
    hint = hint' ∧ rest = rest' := by
  cases h with
  | absent =>
    cases h' with
    | absent => exact ⟨rfl, (hclosing.unique hclosing').2⟩
    | present comma _ => exact absurd (hclosing.unique comma).1 (by decide)
  | present comma name =>
    cases h' with
    | absent => exact absurd (comma.unique hclosing').1 (by decide)
    | present comma' name' =>
      obtain ⟨-, rfl⟩ := comma.unique comma'
      obtain ⟨rfl, rfl⟩ := name.unique name'
      exact ⟨rfl, (hclosing.unique hclosing').2⟩

/-- The marks are read in one way, and never where a name could stand. -/
structure IsMark (marks : List Char → List Char → Prop) : Prop where
  starts : ∀ {cs rest}, marks cs rest → ∃ mid, Token '!' cs mid
  unique : ∀ {cs rest rest'}, marks cs rest → marks cs rest' → rest = rest'

theorem looseMarks_isMark : IsMark looseMarks where
  starts := fun ⟨mid, h, _⟩ => ⟨mid, h⟩
  unique := by
    rintro cs rest rest' ⟨mid, h, hrest⟩ ⟨mid', h', hrest'⟩
    obtain ⟨-, rfl⟩ := h.unique h'
    exact (hrest.unique hrest').2

theorem TypeText.opens {s : TypeSig} (h : TypeText marks s cs rest) : ∃ mid, Token '\x7b' cs mid := by
  cases h with
  | parameter opening => exact ⟨_, opening⟩
  | named opening => exact ⟨_, opening⟩

theorem not_marks_of_name {s : String} (hmarks : IsMark marks) (h : marks cs rest) (hname : Name s cs mid)
    (hplain : s.toList.head? ≠ some '!') : False := by
  obtain ⟨mid', htoken⟩ := hmarks.starts h
  have := htoken.token?_eq '!'
  rw [hname.token?_eq_none hplain] at this
  simp at this

mutual

theorem TypeText.unique (hmarks : IsMark marks) : ∀ {s : TypeSig} {cs rest : List Char}, TypeText marks s cs rest →
    ∀ {s' : TypeSig} {rest' : List Char}, TypeText marks s' cs rest' → s = s' ∧ rest = rest'
  | _, _, _, .parameter opening marked digits closing, _, _, h' => by
    cases h' with
    | parameter opening' marked' digits' closing' =>
      obtain ⟨-, rfl⟩ := opening.unique opening'
      obtain rfl := hmarks.unique marked marked'
      obtain ⟨rfl, rfl⟩ := digits.unique digits'
      exact ⟨rfl, (closing.unique closing').2⟩
    | named opening' word plain =>
      obtain ⟨-, rfl⟩ := opening.unique opening'
      exact (not_marks_of_name hmarks marked word plain).elim
  | _, _, _, .named opening word plain generic hinted closing, _, _, h' => by
    cases h' with
    | parameter opening' marked' =>
      obtain ⟨-, rfl⟩ := opening.unique opening'
      exact (not_marks_of_name hmarks marked' word plain).elim
    | named opening' word' _ generic' hinted' closing' =>
      obtain ⟨-, rfl⟩ := opening.unique opening'
      obtain ⟨rfl, rfl⟩ := word.unique word'
      obtain ⟨rfl, rfl⟩ := generic.unique hmarks (hinted.follow closing) generic' (hinted'.follow closing')
      obtain ⟨rfl, rfl⟩ := hinted.unique closing hinted' closing'
      exact ⟨rfl, rfl⟩

theorem ArgumentsText.unique (hmarks : IsMark marks) : ∀ {ss : List TypeSig} {cs rest : List Char},
    ArgumentsText marks ss cs rest → Reader.token? '<' rest = none → ∀ {ss' : List TypeSig} {rest' : List Char},
    ArgumentsText marks ss' cs rest' → Reader.token? '<' rest' = none → ss = ss' ∧ rest = rest'
  | _, _, _, .absent _, hrest, _, _, h', _ => by
    cases h' with
    | absent => exact ⟨rfl, rfl⟩
    | present opening => simp [opening.token?_eq] at hrest
  | _, _, _, .present opening head tail closing, _, _, _, h', hrest' => by
    cases h' with
    | absent => simp [opening.token?_eq] at hrest'
    | present opening' head' tail' closing' =>
      obtain ⟨-, rfl⟩ := opening.unique opening'
      obtain ⟨rfl, rfl⟩ := head.unique hmarks head'
      obtain ⟨rfl, rfl⟩ := tail.unique hmarks (closing.token?_eq ',') tail' (closing'.token?_eq ',')
      exact ⟨rfl, (closing.unique closing').2⟩

theorem MoreText.unique (hmarks : IsMark marks) : ∀ {ss : List TypeSig} {cs rest : List Char},
    MoreText marks ss cs rest → Reader.token? ',' rest = none → ∀ {ss' : List TypeSig} {rest' : List Char},
    MoreText marks ss' cs rest' → Reader.token? ',' rest' = none → ss = ss' ∧ rest = rest'
  | _, _, _, .done _, hrest, _, _, h', _ => by
    cases h' with
    | done => exact ⟨rfl, rfl⟩
    | next comma => simp [comma.token?_eq] at hrest
  | _, _, _, .next comma head tail, hrest, _, _, h', hrest' => by
    cases h' with
    | done => simp [comma.token?_eq] at hrest'
    | next comma' head' tail' =>
      obtain ⟨-, rfl⟩ := comma.unique comma'
      obtain ⟨rfl, rfl⟩ := head.unique hmarks head'
      obtain ⟨rfl, rfl⟩ := tail.unique hmarks hrest tail' hrest'
      exact ⟨rfl, rfl⟩

end

theorem ParametersText.unique (hmarks : IsMark marks) {ss ss' : List TypeSig} {mid' rest' : List Char}
    (h : ParametersText marks ss cs mid) (hclosing : Token ')' mid rest) (h' : ParametersText marks ss' cs mid')
    (hclosing' : Token ')' mid' rest') : ss = ss' ∧ rest = rest' := by
  cases h with
  | none =>
    cases h' with
    | none => exact ⟨rfl, (hclosing.unique hclosing').2⟩
    | some head => exact absurd (hclosing.unique head.opens.choose_spec).1 (by decide)
  | some head tail =>
    cases h' with
    | none => exact absurd (hclosing'.unique head.opens.choose_spec).1 (by decide)
    | some head' tail' =>
      obtain ⟨rfl, rfl⟩ := head.unique hmarks head'
      obtain ⟨rfl, rfl⟩ := tail.unique hmarks (hclosing.token?_eq ',') tail' (hclosing'.token?_eq ',')
      exact ⟨rfl, (hclosing.unique hclosing').2⟩

theorem ArityText.unique {n n' : Nat} {mid' rest' : List Char} (h : ArityText n cs mid) (hsign : Token '@' mid rest)
    (h' : ArityText n' cs mid') (hsign' : Token '@' mid' rest') : n = n' ∧ rest = rest' := by
  cases h with
  | absent =>
    cases h' with
    | absent => exact ⟨rfl, (hsign.unique hsign').2⟩
    | present opening => exact absurd (hsign.unique opening).1 (by decide)
  | present opening digits closing =>
    cases h' with
    | absent => exact absurd (hsign'.unique opening).1 (by decide)
    | present opening' digits' closing' =>
      obtain ⟨-, rfl⟩ := opening.unique opening'
      obtain ⟨rfl, rfl⟩ := digits.unique digits'
      obtain ⟨-, rfl⟩ := closing.unique closing'
      exact ⟨rfl, (hsign.unique hsign').2⟩

theorem MemberText.unique (hmarks : IsMark marks) {s s' : MemberSig} {rest' : List Char}
    (h : MemberText marks s cs rest) (h' : MemberText marks s' cs rest') : s = s' ∧ rest = rest' := by
  obtain ⟨word, generic, sign, type, -, opening, list, closing⟩ := h
  obtain ⟨word', generic', sign', type', -, opening', list', closing'⟩ := h'
  obtain ⟨rfl, rfl⟩ := word.unique word'
  obtain ⟨rfl, rfl⟩ := generic.unique sign generic' sign'
  obtain ⟨rfl, rfl⟩ := type.unique hmarks type'
  obtain ⟨-, rfl⟩ := opening.unique opening'
  obtain ⟨rfl, rfl⟩ := list.unique hmarks closing list' closing'
  exact ⟨rfl, rfl⟩

end

end Grammar

/-- Where the marks are one token, no text has another signature. -/
theorem TypeSig.Derives.loosen {s : TypeSig} {text : String} (h : s.Derives Grammar.joinedMarks text) :
    s.Derives Grammar.looseMarks text := by
  obtain ⟨rest, h, hrest⟩ := h
  exact ⟨rest, h.mono Grammar.looseMarks_of_joinedMarks, hrest⟩

theorem MemberSig.Derives.loosen {s : MemberSig} {text : String} (h : s.Derives Grammar.joinedMarks text) :
    s.Derives Grammar.looseMarks text := by
  obtain ⟨rest, h, hrest⟩ := h
  exact ⟨rest, h.mono Grammar.looseMarks_of_joinedMarks, hrest⟩

theorem TypeSig.Derives.unique {marks : List Char → List Char → Prop} (hmarks : Grammar.IsMark marks) {s s' : TypeSig}
    {text : String} (h : s.Derives marks text) (h' : s'.Derives marks text) : s = s' := by
  obtain ⟨_, h, -⟩ := h
  obtain ⟨_, h', -⟩ := h'
  exact (h.unique hmarks h').1

theorem MemberSig.Derives.unique {marks : List Char → List Char → Prop} (hmarks : Grammar.IsMark marks)
    {s s' : MemberSig} {text : String} (h : s.Derives marks text) (h' : s'.Derives marks text) : s = s' := by
  obtain ⟨_, h, -⟩ := h
  obtain ⟨_, h', -⟩ := h'
  exact (h.unique hmarks h').1

end ExprTree.Signature
