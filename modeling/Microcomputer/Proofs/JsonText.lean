import Mathlib.Data.List.TakeWhile
import Microcomputer.Json.Writer

/-!
Reading JSON undoes writing it.

* `ofTokens?_tokens`: the tokens of a value, whatever it is, are read back to the value.
* `ofText?_compact`: so is its text, if its words and strings are plain. A plain word holds nothing that
  ends a word, and a plain string nothing that needs an escape.
* `byte?_natural`, `word64?_natural` and `bool?_bool`: a word means what it was written from.
* `list?_array` and `fields?_record`: the items of an array and the members of a record are read one by one.
-/

namespace Microcomputer.Json

/-! ## Tokens -/

/-- Where an array was just opened, anything but its end is read as where a value must come. -/
theorem next?_first {t : Token} (ht : t ≠ .closeArray) (frames : List Frame) :
    Reading.next? (.first frames) t = Reading.next? (.value (.array [] :: frames)) t := by
  cases t with
  | closeArray => exact absurd rfl ht
  | _ => rfl

theorem tokens_head (v : Json) : ∃ t rest, v.tokens = t :: rest ∧ t ≠ .closeArray := by
  cases v with
  | word written => exact ⟨_, _, rfl, nofun⟩
  | string written => exact ⟨_, _, rfl, nofun⟩
  | array items =>
    cases items with
    | nil => exact ⟨_, _, rfl, nofun⟩
    | cons v rest => exact ⟨_, _, rfl, nofun⟩
  | object members =>
    cases members with
    | nil => exact ⟨_, _, rfl, nofun⟩
    | cons m rest => exact ⟨_, _, rfl, nofun⟩

/-- Where the reader stands after some tokens. -/
def Reading.after? (r : Reading) (tokens : List Token) : Option Reading := tokens.foldlM Reading.next? r

theorem Reading.after?_append {r q : Reading} {tokens : List Token} (h : r.after? tokens = some q)
    (more : List Token) : r.after? (tokens ++ more) = q.after? more := by
  rw [after?, List.foldlM_append]
  rw [after?] at h
  rw [h]
  rfl

mutual

/-- Where a value must come, its tokens complete it. -/
theorem after?_tokens (v : Json) (frames : List Frame) :
    (Reading.value frames).after? v.tokens = some (.complete v frames) := by
  cases v with
  | word written => rfl
  | string written => rfl
  | array items =>
    cases items with
    | nil => rfl
    | cons v rest =>
      have hfirst : (Reading.first frames).after? v.tokens = some (.complete v (.array [] :: frames)) := by
        have hvalue := after?_tokens v (.array [] :: frames)
        obtain ⟨t, later, htokens, ht⟩ := v.tokens_head
        rw [htokens, Reading.after?, List.foldlM_cons] at hvalue ⊢
        rw [next?_first ht]
        exact hvalue
      show (Reading.first frames).after? (v.tokens ++ laterItems rest ++ [.closeArray]) = _
      rw [List.append_assoc, Reading.after?_append hfirst]
      exact after?_laterItems rest v [] frames
  | object members =>
    cases members with
    | nil => rfl
    | cons m rest =>
      obtain ⟨key, v⟩ := m
      show (Reading.value (.object [] key :: frames)).after?
        (v.tokens ++ laterMembers rest ++ [.closeObject]) = _
      rw [List.append_assoc, Reading.after?_append (after?_tokens v _)]
      exact after?_laterMembers rest v key [] frames

theorem after?_laterItems (rest : List Json) (v : Json) (items : List Json) (frames : List Frame) :
    (Reading.complete v (.array items :: frames)).after? (laterItems rest ++ [.closeArray]) =
      some (.complete (.array (items.reverse ++ v :: rest)) frames) := by
  cases rest with
  | nil =>
    rw [← List.reverse_cons]
    rfl
  | cons w rest =>
    show (Reading.value (.array (v :: items) :: frames)).after?
      (w.tokens ++ laterItems rest ++ [.closeArray]) = _
    rw [List.append_assoc, Reading.after?_append (after?_tokens w _), after?_laterItems rest w,
      List.reverse_cons, List.append_assoc]
    rfl

theorem after?_laterMembers (rest : List (List Char × Json)) (v : Json) (key : List Char)
    (members : List (List Char × Json)) (frames : List Frame) :
    (Reading.complete v (.object members key :: frames)).after? (laterMembers rest ++ [.closeObject]) =
      some (.complete (.object (members.reverse ++ (key, v) :: rest)) frames) := by
  cases rest with
  | nil =>
    rw [← List.reverse_cons]
    rfl
  | cons m rest =>
    obtain ⟨k, w⟩ := m
    show (Reading.value (.object ((key, v) :: members) k :: frames)).after?
      (w.tokens ++ laterMembers rest ++ [.closeObject]) = _
    rw [List.append_assoc, Reading.after?_append (after?_tokens w _), after?_laterMembers rest w,
      List.reverse_cons, List.append_assoc]
    rfl

end

/-- The tokens of a value are read back to the value. -/
theorem ofTokens?_tokens (v : Json) : ofTokens? v.tokens = some v := by
  have hvalue := after?_tokens v []
  rw [Reading.after?] at hvalue
  rw [ofTokens?, hvalue]
  rfl

/-! ## Scanning -/

/-- A character that can stand within a word. -/
def IsWordChar (c : Char) : Prop := isSpace c = false ∧ c ≠ '"' ∧ punctuation? c = none

/-- A character that stands in a string as it is. -/
def IsPlainChar (c : Char) : Prop := 0x20 ≤ c.toNat ∧ c ≠ '"' ∧ c ≠ '\\'

instance (c : Char) : Decidable (IsWordChar c) := inferInstanceAs (Decidable (_ ∧ _))
instance (c : Char) : Decidable (IsPlainChar c) := inferInstanceAs (Decidable (_ ∧ _))

-- There are finitely many characters, and it is not by all of them that these are to be decided.
instance (cs : List Char) : Decidable (∀ c ∈ cs, IsWordChar c) := List.decidableBAll IsWordChar cs
instance (cs : List Char) : Decidable (∀ c ∈ cs, IsPlainChar c) := List.decidableBAll IsPlainChar cs

/-- A token whose characters say where it ends. -/
def Token.IsPlain : Token → Prop
  | .word written => isWord written = true ∧ ∀ c ∈ written, IsWordChar c
  | .string written => ∀ c ∈ written, IsPlainChar c
  | _ => True

/-- The words and strings of a value are plain. -/
def IsPlain (v : Json) : Prop := ∀ t ∈ v.tokens, t.IsPlain

/-- A text at whose start a word would end: the end of all, or punctuation. -/
def EndsWord : List Char → Prop
  | [] => True
  | c :: _ => (punctuation? c).isSome

theorem endsWord_punctuation {c : Char} {t : Token} (h : punctuation? c = some t) (rest : List Char) :
    EndsWord (c :: rest) :=
  Option.isSome_iff_exists.mpr ⟨t, h⟩

theorem scan_punctuation {c : Char} {t : Token} (h : punctuation? c = some t) (rest : List Char) :
    scan .nothing (c :: rest) = (scan .nothing rest).map (t :: ·) ∧
      ∀ seen, scan (.word seen) (c :: rest) =
        (wordToken? seen).bind fun word => (scan .nothing rest).map (word :: t :: ·) := by
  have hspace : isSpace c = false := by
    rw [Bool.eq_false_iff]
    intro hspace
    simp only [isSpace, Bool.or_eq_true, decide_eq_true_eq] at hspace
    rcases hspace with ((rfl | rfl) | rfl) | rfl <;> cases h
  have hquote : c ≠ '"' := by
    rintro rfl
    cases h
  constructor
  · rw [scan, if_neg (Bool.eq_false_iff.mp hspace), if_neg hquote, h]
  · intro seen
    rw [scan, if_neg (Bool.eq_false_iff.mp hspace), if_neg hquote, h]
    cases wordToken? seen <;> cases scan .nothing rest <;> rfl

theorem scan_word_end (seen : List Char) {rest : List Char} (hrest : EndsWord rest) :
    scan (.word seen) rest = (wordToken? seen).bind fun word => (scan .nothing rest).map (word :: ·) := by
  cases rest with
  | nil => cases h : wordToken? seen <;> simp [scan, h]
  | cons c rest =>
    obtain ⟨t, ht⟩ := Option.isSome_iff_exists.mp hrest
    obtain ⟨hnothing, hword⟩ := scan_punctuation ht rest
    rw [hword, hnothing]
    simp only [Option.map_map]
    rfl

theorem scan_word_chars (written seen rest : List Char) (h : ∀ c ∈ written, IsWordChar c) :
    scan (.word seen) (written ++ rest) = scan (.word (written.reverse ++ seen)) rest := by
  induction written generalizing seen with
  | nil => rfl
  | cons c written ih =>
    obtain ⟨⟨hspace, hquote, hpunctuation⟩, hwritten⟩ := List.forall_mem_cons.mp h
    rw [List.cons_append, scan, if_neg (Bool.eq_false_iff.mp hspace), if_neg hquote, hpunctuation,
      List.reverse_cons, List.append_assoc]
    exact ih (c :: seen) hwritten

/-- A word is scanned as far as it goes. -/
theorem scan_word {written rest : List Char} (h : (Token.word written).IsPlain) (hrest : EndsWord rest) :
    scan .nothing (written ++ rest) = (scan .nothing rest).map (.word written :: ·) := by
  obtain ⟨hword, hchars⟩ := h
  cases written with
  | nil => cases hword
  | cons c written =>
    obtain ⟨⟨hspace, hquote, hpunctuation⟩, hwritten⟩ := List.forall_mem_cons.mp hchars
    have htoken : wordToken? (written.reverse ++ [c]) = some (.word (c :: written)) := by
      rw [wordToken?, ← List.reverse_cons, List.reverse_reverse, if_pos hword]
    rw [List.cons_append, scan, if_neg (Bool.eq_false_iff.mp hspace), if_neg hquote, hpunctuation]
    show scan (.word [c]) (written ++ rest) = _
    rw [scan_word_chars written [c] rest hwritten, scan_word_end _ hrest, htoken]
    rfl

theorem pieces?_of_isPlain {written : List Char} (h : ∀ c ∈ written, IsPlainChar c) :
    pieces? written = some (written.map .char) := by
  induction written with
  | nil => rfl
  | cons c written ih =>
    obtain ⟨⟨hlow, hquote, hslash⟩, hwritten⟩ := List.forall_mem_cons.mp h
    rw [pieces?, if_neg (not_or.mpr ⟨Nat.not_lt.mpr hlow, hslash⟩), ih hwritten]
    · rfl
    · rintro a b d e rest rfl
      exact absurd rfl hslash
    · rintro letter rest rfl
      exact absurd rfl hslash

theorem scan_string_chars (written seen rest : List Char) (h : ∀ c ∈ written, IsPlainChar c) :
    scan (.string seen) (written ++ rest) = scan (.string (written.reverse ++ seen)) rest := by
  induction written generalizing seen with
  | nil => rfl
  | cons c written ih =>
    obtain ⟨⟨hlow, hquote, hslash⟩, hwritten⟩ := List.forall_mem_cons.mp h
    rw [List.cons_append, scan, if_neg hquote, if_neg hslash, List.reverse_cons, List.append_assoc]
    exact ih (c :: seen) hwritten

theorem scan_string {written : List Char} (h : (Token.string written).IsPlain) (rest : List Char) :
    scan .nothing ('"' :: written ++ ['"'] ++ rest) =
      (scan .nothing rest).map (.string written :: ·) := by
  have htoken : stringToken? (written.reverse ++ []) = some (.string written) := by
    rw [stringToken?, List.append_nil, List.reverse_reverse, pieces?_of_isPlain h]
    rfl
  rw [List.cons_append, List.cons_append, List.append_assoc, scan]
  show scan (.string []) (written ++ (['"'] ++ rest)) = _
  rw [scan_string_chars written [] _ h, List.singleton_append, scan, if_pos rfl, htoken]
  cases scan .nothing rest <;> rfl

/-- A plain token is scanned as far as it goes. -/
theorem scan_token {t : Token} (ht : t.IsPlain) {rest : List Char} (hrest : EndsWord rest) :
    scan .nothing (t.chars ++ rest) = (scan .nothing rest).map (t :: ·) := by
  cases t with
  | word written => exact scan_word ht hrest
  | string written => exact scan_string ht rest
  | _ => exact (scan_punctuation rfl rest).1

/-- Ahead of some text, the characters of the tokens are scanned into them. -/
def ScansAhead (tokens : List Token) (rest : List Char) : Prop :=
  scan .nothing (tokens.flatMap Token.chars ++ rest) = (scan .nothing rest).map (tokens ++ ·)

theorem ScansAhead.append {a b : List Token} {rest : List Char}
    (ha : ScansAhead a (b.flatMap Token.chars ++ rest)) (hb : ScansAhead b rest) :
    ScansAhead (a ++ b) rest := by
  unfold ScansAhead at *
  rw [List.flatMap_append, List.append_assoc, ha, hb, Option.map_map]
  congr 1
  funext more
  exact (List.append_assoc a b more).symm

theorem scansAhead_token {t : Token} (ht : t.IsPlain) {rest : List Char} (hrest : EndsWord rest) :
    ScansAhead [t] rest := by
  rw [ScansAhead, List.flatMap_singleton]
  exact scan_token ht hrest

/-- Punctuation does not depend on what follows it. -/
theorem scansAhead_punctuation {c : Char} {t : Token} (hchars : t.chars = [c])
    (h : punctuation? c = some t) (rest : List Char) : ScansAhead [t] rest := by
  rw [ScansAhead, List.flatMap_singleton, hchars]
  exact (scan_punctuation h rest).1

theorem endsWord_laterItems (items : List Json) (rest : List Char) :
    EndsWord ((laterItems items ++ [Token.closeArray]).flatMap Token.chars ++ rest) := by
  cases items with
  | nil => exact endsWord_punctuation rfl _
  | cons v items => exact endsWord_punctuation rfl _

theorem endsWord_laterMembers (members : List (List Char × Json)) (rest : List Char) :
    EndsWord ((laterMembers members ++ [Token.closeObject]).flatMap Token.chars ++ rest) := by
  cases members with
  | nil => exact endsWord_punctuation rfl _
  | cons m members => exact endsWord_punctuation rfl _

/-- A key with its colon is scanned whatever its value is. -/
theorem scansAhead_key {key : List Char} (hkey : (Token.string key).IsPlain) (rest : List Char) :
    ScansAhead [.string key, .colon] rest := by
  have hcolon := scansAhead_punctuation (t := .colon) rfl rfl rest
  exact (scansAhead_token hkey (endsWord_punctuation rfl _)).append hcolon

mutual

theorem scansAhead_tokens (v : Json) (hv : ∀ t ∈ v.tokens, t.IsPlain) {rest : List Char}
    (hrest : EndsWord rest) : ScansAhead v.tokens rest := by
  cases v with
  | word written => exact scansAhead_token (hv _ List.mem_cons_self) hrest
  | string written => exact scansAhead_token (hv _ List.mem_cons_self) hrest
  | array items =>
    cases items with
    | nil =>
      exact (scansAhead_punctuation (t := .openArray) rfl rfl _).append
        (scansAhead_punctuation (t := .closeArray) rfl rfl rest)
    | cons v items =>
      have hitem : ∀ t ∈ v.tokens, t.IsPlain := fun t ht => hv t (by simp [tokens, ht])
      have hitems : ∀ t ∈ laterItems items, t.IsPlain := fun t ht => hv t (by simp [tokens, ht])
      rw [tokens, List.append_assoc]
      refine (scansAhead_punctuation (t := .openArray) rfl rfl _).append ?_
      exact (scansAhead_tokens v hitem (endsWord_laterItems items rest)).append
        (scansAhead_laterItems items hitems rest)
  | object members =>
    cases members with
    | nil =>
      exact (scansAhead_punctuation (t := .openObject) rfl rfl _).append
        (scansAhead_punctuation (t := .closeObject) rfl rfl rest)
    | cons m members =>
      obtain ⟨key, v⟩ := m
      have hkey : (Token.string key).IsPlain := hv _ (by simp [tokens])
      have hmember : ∀ t ∈ v.tokens, t.IsPlain := fun t ht => hv t (by simp [tokens, ht])
      have hmembers : ∀ t ∈ laterMembers members, t.IsPlain := fun t ht => hv t (by simp [tokens, ht])
      rw [tokens, List.append_assoc]
      refine (scansAhead_punctuation (t := .openObject) rfl rfl _).append ?_
      refine (scansAhead_key hkey _).append ?_
      exact (scansAhead_tokens v hmember (endsWord_laterMembers members rest)).append
        (scansAhead_laterMembers members hmembers rest)

theorem scansAhead_laterItems (items : List Json) (hitems : ∀ t ∈ laterItems items, t.IsPlain)
    (rest : List Char) : ScansAhead (laterItems items ++ [.closeArray]) rest := by
  cases items with
  | nil => exact scansAhead_punctuation (t := .closeArray) rfl rfl rest
  | cons v items =>
    have hitem : ∀ t ∈ v.tokens, t.IsPlain := fun t ht => hitems t (by simp [laterItems, ht])
    have hlater : ∀ t ∈ laterItems items, t.IsPlain := fun t ht => hitems t (by simp [laterItems, ht])
    rw [laterItems, List.cons_append, List.append_assoc]
    refine (scansAhead_punctuation (t := .comma) rfl rfl _).append ?_
    exact (scansAhead_tokens v hitem (endsWord_laterItems items rest)).append
      (scansAhead_laterItems items hlater rest)

theorem scansAhead_laterMembers (members : List (List Char × Json))
    (hmembers : ∀ t ∈ laterMembers members, t.IsPlain) (rest : List Char) :
    ScansAhead (laterMembers members ++ [.closeObject]) rest := by
  cases members with
  | nil => exact scansAhead_punctuation (t := .closeObject) rfl rfl rest
  | cons m members =>
    obtain ⟨key, v⟩ := m
    have hkey : (Token.string key).IsPlain := hmembers _ (by simp [laterMembers])
    have hmember : ∀ t ∈ v.tokens, t.IsPlain := fun t ht => hmembers t (by simp [laterMembers, ht])
    have hlater : ∀ t ∈ laterMembers members, t.IsPlain :=
      fun t ht => hmembers t (by simp [laterMembers, ht])
    rw [laterMembers, List.cons_append, List.cons_append, List.cons_append, List.append_assoc]
    refine (scansAhead_punctuation (t := .comma) rfl rfl _).append ?_
    refine (scansAhead_key hkey _).append ?_
    exact (scansAhead_tokens v hmember (endsWord_laterMembers members rest)).append
      (scansAhead_laterMembers members hlater rest)

end

/-- The text of a plain value is read back to the value. -/
theorem ofText?_compact {v : Json} (hv : v.IsPlain) : ofText? v.compact = some v := by
  have hscan : Token.ofText? v.compact.toList = some v.tokens := by
    have hahead : ScansAhead v.tokens [] := scansAhead_tokens v hv trivial
    rw [ScansAhead, List.append_nil] at hahead
    rw [compact, String.toList_ofList, Token.ofText?, hahead, scan, Option.map_some, List.append_nil]
  rw [ofText?, hscan]
  exact ofTokens?_tokens v

/-! ## Words -/

theorem ofDigits_toDigits (n : Nat) : ofDigits (Nat.toDigits 10 n) = n := by
  have hdigits := Nat.ofDigitChars_ten_toDigits (n := n)
  rwa [Nat.ofDigitChars_eq_foldl] at hdigits

/-- Only zero itself begins with a zero. -/
theorem head?_toDigits {n : Nat} (hn : 0 < n) : (Nat.toDigits 10 n).head? ≠ some '0' := by
  induction n using Nat.strongRecOn with
  | ind n ih =>
    rw [Nat.toDigits_eq_if (by decide)]
    split
    · next hlt =>
      have hdigit : ∀ d < 10, 0 < d → [Nat.digitChar d].head? ≠ some '0' := by decide
      exact hdigit n hlt hn
    · next hge =>
      have hquotient : 0 < n / 10 := Nat.div_pos (Nat.le_of_not_lt hge) (by decide)
      obtain ⟨c, rest, hdigits⟩ := List.exists_cons_of_ne_nil (Nat.toDigits_ne_nil (n := n / 10) (b := 10))
      have hhead := ih (n / 10) (Nat.div_lt_self hn (by decide)) hquotient
      rw [hdigits] at hhead ⊢
      exact hhead

theorem isDigit_of_mem_toDigits {n : Nat} {c : Char} (h : c ∈ Nat.toDigits 10 n) : c.isDigit = true :=
  Nat.isDigit_of_mem_toDigits (by decide) (by decide) h

theorem isWhole_toDigits (n : Nat) : isWhole (Nat.toDigits 10 n) = true := by
  rcases Nat.eq_zero_or_pos n with rfl | hn
  · rfl
  · have hhead := head?_toDigits hn
    have hall : (Nat.toDigits 10 n).all Char.isDigit = true :=
      List.all_eq_true.mpr fun c hc => isDigit_of_mem_toDigits hc
    unfold isWhole
    split
    · next hnil => exact absurd hnil Nat.toDigits_ne_nil
    · rfl
    · next c rest hne hdigits =>
      rw [hdigits, List.head?_cons, Ne, Option.some.injEq] at hhead
      rw [hdigits] at hall
      rw [hall, Bool.and_true, bne_iff_ne]
      exact hhead

theorem isWordChar_of_isDigit {c : Char} (h : c.isDigit = true) : IsWordChar c := by
  have hspace : isSpace c = false := by
    rw [Bool.eq_false_iff]
    intro hspace
    simp only [isSpace, Bool.or_eq_true, decide_eq_true_eq] at hspace
    rcases hspace with ((rfl | rfl) | rfl) | rfl <;> cases h
  refine ⟨hspace, ?_, ?_⟩
  · rintro rfl
    cases h
  · unfold punctuation?
    split
    case h_7 => rfl
    all_goals cases h

theorem isNumber_toDigits (n : Nat) : isNumber (Nat.toDigits 10 n) = true := by
  have hdigits : ∀ c ∈ Nat.toDigits 10 n, c.isDigit = true := fun c hc => isDigit_of_mem_toDigits hc
  have htake : (Nat.toDigits 10 n).takeWhile Char.isDigit = Nat.toDigits 10 n :=
    List.takeWhile_eq_self_iff.mpr hdigits
  have hdrop : (Nat.toDigits 10 n).dropWhile Char.isDigit = [] := List.dropWhile_eq_nil_iff.mpr hdigits
  unfold isNumber
  split
  · next rest hsign =>
    have hminus := hdigits '-' (hsign ▸ List.mem_cons_self)
    cases hminus
  · show (isWhole ((Nat.toDigits 10 n).takeWhile Char.isDigit) &&
      isFraction ((Nat.toDigits 10 n).dropWhile Char.isDigit)) = true
    rw [htake, hdrop, isWhole_toDigits]
    rfl

theorem isPlain_natural (n : Nat) : (natural n).IsPlain := by
  intro t ht
  obtain rfl := List.mem_singleton.mp ht
  refine ⟨?_, fun c hc => isWordChar_of_isDigit (isDigit_of_mem_toDigits hc)⟩
  rw [isWord, isNumber_toDigits, Bool.or_true]

theorem isPlain_null : null.IsPlain := by
  intro t ht
  obtain rfl := List.mem_singleton.mp ht
  exact ⟨rfl, by decide⟩

theorem isPlain_bool (b : Bool) : (bool b).IsPlain := by
  intro t ht
  obtain rfl := List.mem_singleton.mp ht
  cases b <;> exact ⟨rfl, by decide⟩

theorem naturalBelow?_natural {n limit : Nat} (h : n < limit) : (natural n).naturalBelow? limit = some n := by
  rw [natural, naturalBelow?, ofDigits_toDigits, if_pos ⟨isWhole_toDigits n, h⟩]

theorem byte?_natural (b : UInt8) : (natural b.toNat).byte? = some b := by
  rw [byte?, naturalBelow?_natural b.toNat_lt, Option.map_some, UInt8.ofNat_toNat]

theorem word64?_natural (w : UInt64) : (natural w.toNat).word64? = some w := by
  rw [word64?, naturalBelow?_natural w.toNat_lt, Option.map_some, UInt64.ofNat_toNat]

theorem bool?_bool (b : Bool) : (bool b).bool? = some b := by
  cases b <;> rfl

/-! ## Names -/

theorem join?_chars (written : List Char) : join? none (written.map .char) = some written := by
  induction written with
  | nil => rfl
  | cons c written ih =>
    rw [List.map_cons, join?, ih]
    rfl

/-- A name that stands in a text as it is. -/
def IsPlainName (s : String) : Prop := ∀ c ∈ s.toList, IsPlainChar c

instance (s : String) : Decidable (IsPlainName s) :=
  inferInstanceAs (Decidable (∀ c ∈ s.toList, IsPlainChar c))

theorem isPlain_name {s : String} (h : IsPlainName s) : (name s).IsPlain := by
  intro t ht
  obtain rfl := List.mem_singleton.mp ht
  exact h

theorem decode?_toList {s : String} (h : IsPlainName s) : decode? s.toList = some s := by
  rw [decode?, pieces?_of_isPlain h]
  show (join? none (s.toList.map .char)).bind (fun cs => some (String.ofList cs)) = some s
  rw [join?_chars, Option.bind_some, String.ofList_toList]

/-! ## Arrays and records -/

theorem isPlain_array {items : List Json} (h : ∀ v ∈ items, v.IsPlain) : (array items).IsPlain := by
  have hlater : ∀ {items : List Json}, (∀ v ∈ items, v.IsPlain) → ∀ t ∈ laterItems items, t.IsPlain := by
    intro items h
    induction items with
    | nil => exact List.forall_mem_nil _
    | cons v items ih =>
      obtain ⟨hv, hitems⟩ := List.forall_mem_cons.mp h
      exact List.forall_mem_cons.mpr ⟨trivial, List.forall_mem_append.mpr ⟨hv, ih hitems⟩⟩
  have hclose : ∀ t ∈ [Token.closeArray], t.IsPlain := List.forall_mem_singleton.mpr trivial
  cases items with
  | nil => exact List.forall_mem_cons.mpr ⟨trivial, hclose⟩
  | cons v items =>
    obtain ⟨hv, hitems⟩ := List.forall_mem_cons.mp h
    rw [IsPlain, tokens]
    exact List.forall_mem_cons.mpr ⟨trivial, List.forall_mem_append.mpr
      ⟨List.forall_mem_append.mpr ⟨hv, hlater hitems⟩, hclose⟩⟩

theorem isPlain_record {members : List (String × Json)}
    (hnames : ∀ n ∈ members.map Prod.fst, IsPlainName n)
    (hvalues : ∀ v ∈ members.map Prod.snd, v.IsPlain) : (record members).IsPlain := by
  have hlater : ∀ {members : List (String × Json)}, (∀ n ∈ members.map Prod.fst, IsPlainName n) →
      (∀ v ∈ members.map Prod.snd, v.IsPlain) →
      ∀ t ∈ laterMembers (members.map fun m => (m.1.toList, m.2)), t.IsPlain := by
    intro members hnames hvalues
    induction members with
    | nil => exact List.forall_mem_nil _
    | cons m members ih =>
      obtain ⟨hname, hnames⟩ := List.forall_mem_cons.mp hnames
      obtain ⟨hvalue, hvalues⟩ := List.forall_mem_cons.mp hvalues
      exact List.forall_mem_cons.mpr ⟨trivial, List.forall_mem_cons.mpr ⟨hname,
        List.forall_mem_cons.mpr ⟨trivial, List.forall_mem_append.mpr ⟨hvalue, ih hnames hvalues⟩⟩⟩⟩
  have hclose : ∀ t ∈ [Token.closeObject], t.IsPlain := List.forall_mem_singleton.mpr trivial
  cases members with
  | nil => exact List.forall_mem_cons.mpr ⟨trivial, hclose⟩
  | cons m members =>
    obtain ⟨hname, hnames⟩ := List.forall_mem_cons.mp hnames
    obtain ⟨hvalue, hvalues⟩ := List.forall_mem_cons.mp hvalues
    rw [IsPlain, record, List.map_cons, tokens]
    exact List.forall_mem_cons.mpr ⟨trivial, List.forall_mem_cons.mpr ⟨hname,
      List.forall_mem_cons.mpr ⟨trivial, List.forall_mem_append.mpr
        ⟨List.forall_mem_append.mpr ⟨hvalue, hlater hnames hvalues⟩, hclose⟩⟩⟩⟩

/-- Items that are each read back are read back together. -/
theorem list?_array {α : Type} {read? : Json → Option α} {write : α → Json}
    (h : ∀ a, read? (write a) = some a) (items : List α) :
    (array (items.map write)).list? read? = some items := by
  show (items.map write).mapM read? = some items
  induction items with
  | nil => rfl
  | cons a items ih =>
    rw [List.map_cons, List.mapM_cons, h, ih]
    rfl

/-- Members that are placed in turn come to stand in reverse. -/
theorem foldlM_place? {layout : Layout} {members found : List (String × Json)}
    (hplain : ∀ n ∈ members.map Prod.fst, IsPlainName n)
    (hfields : ∀ n ∈ members.map Prod.fst, n ∈ layout.fields)
    (hnodup : ((members ++ found).map Prod.fst).Nodup) :
    (members.map fun (key, value) => (key.toList, value)).foldlM layout.place? found =
      some (members.reverse ++ found) := by
  induction members generalizing found with
  | nil => rfl
  | cons m members ih =>
    obtain ⟨key, value⟩ := m
    obtain ⟨hkey, hplain⟩ := List.forall_mem_cons.mp hplain
    obtain ⟨hfield, hfields⟩ := List.forall_mem_cons.mp hfields
    have hnew : found.any (fun m => m.1 == key) = false := by
      rw [List.cons_append, List.map_cons, List.nodup_cons] at hnodup
      rw [List.any_eq_false]
      intro m hm hsame
      exact hnodup.1 (List.mem_map.mpr ⟨m, List.mem_append_right members hm, eq_of_beq hsame⟩)
    have hplace : layout.place? found (key.toList, value) = some ((key, value) :: found) := by
      have hcontains : layout.fields.contains key = true := List.contains_iff_mem.mpr hfield
      simp only [Layout.place?, decode?_toList hkey, Option.bind_eq_bind, Option.bind_some, hcontains,
        if_true, hnew, Bool.false_eq_true, if_false]
      rfl
    have hrest : ((members ++ (key, value) :: found).map Prod.fst).Nodup :=
      (List.perm_middle.map Prod.fst).nodup_iff.mpr hnodup
    rw [List.map_cons, List.foldlM_cons, hplace]
    show (members.map fun (key, value) => (key.toList, value)).foldlM layout.place?
      ((key, value) :: found) = _
    rw [ih hplain hfields hrest, List.reverse_cons, List.append_assoc]
    rfl

/-- A record that names the fields of a layout in order is read as its members. -/
theorem fields?_record {layout : Layout} {members : List (String × Json)}
    (hnames : members.map Prod.fst = layout.fields) (hplain : ∀ n ∈ layout.fields, IsPlainName n)
    (hnodup : layout.fields.Nodup) : (record members).fields? layout = some members.reverse := by
  rw [← hnames] at hplain hnodup
  have hfields : ∀ n ∈ members.map Prod.fst, n ∈ layout.fields := fun n hn => hnames ▸ hn
  have hplaced : (record members).fields? layout = some (members.reverse ++ []) :=
    foldlM_place? hplain hfields (by rwa [List.append_nil])
  rwa [List.append_nil] at hplaced

end Microcomputer.Json
