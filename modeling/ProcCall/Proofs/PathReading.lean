import ProcCall.Name.Reader
import ProcCall.Proofs.QualifiedNames

/-!
# The reader in use reads written paths

Unless another reader is given, names are read with `NamePath.read`. It reads a written path as it
is known of readers (`PathReader.ReadsPaths`), as long as no word of the path has a meaning of its
own and no identifier starts with the mark of a temporary procedure. A plain word cannot be taken
for anything else: it is no number, and no part of a phrase, because a phrase has a hyphen or goes
on behind a blank. So the tokens of a written path are those of its identifiers with dots between
them.

* `NameToken.wordOrPhrase_word`: a plain word is read as a word.
* `NameToken.Reads`, `WrittenPath.reads`: the tokens of a written path, whatever stands before it.
* `WrittenPath.batch?_tokens`: the parts that these tokens are read as.
* `NamePath.read_text`: what the reader gives for a written path.
* `ProcName.ofText_text_eq_ok_iff`: when a written path is the name of a call, and which one.
-/

namespace ProcCall

/-- Whether a word has no meaning of its own: it starts like a word and not like a number, goes on
with characters of words, and is neither reserved nor a command. -/
structure IsFreeWord (w : Text) : Prop where
  start : ∃ c rest, w = c :: rest ∧ c.isDigit = false ∧ NameToken.isMark .bracketQuoted c = false
  chars : ∀ c ∈ w, NameToken.isWordChar .bracketQuoted c = true
  unreserved : Dialect.bracketQuoted.isReserved w = false
  noCommand : Dialect.bracketQuoted.isCommand w = false

/-- The tokens that an identifier is written with. -/
def Identifier.token : Identifier → NameToken
  | plain w => .word w
  | bracketed body => .quoted body

namespace WrittenPath

/-- The tokens in a place. -/
def placeTokens (place : Option Identifier) : List NameToken := (place.map Identifier.token).toList

/-- The tokens that the path is written with. -/
def tokens (p : WrittenPath) : List NameToken := [.dot].intercalate (p.map placeTokens)

/-- Whether no identifier of a path starts with the mark of a temporary procedure. -/
def IsUnmarked (p : WrittenPath) : Prop := ∀ i, some i ∈ p → i.name.head? ≠ some '#'

/-- The parts that a path is read as. -/
def parts (p : WrittenPath) : NamePath := p.map (·.map fun i => .identifier i.name)

end WrittenPath

namespace NameToken

variable {c : Char} {w t rest : Text} {ts : List NameToken}

/-! ## Words -/

theorem exists_of_afterLetters? (h : afterLetters? w t = some rest) :
    ∃ read, t = read ++ rest ∧ read.map Char.toUpper = w := by
  induction w generalizing t with
  | nil =>
    cases h
    exact ⟨[], rfl, rfl⟩
  | cons d w ih =>
    cases t with
    | nil => cases h
    | cons c t =>
      rw [afterLetters?] at h
      split at h
      · next hc =>
        obtain ⟨read, rfl, rfl⟩ := ih h
        exact ⟨c :: read, rfl, by rw [List.map_cons, hc]⟩
      · cases h

theorem eq_hyphen_of_toUpper (h : c.toUpper = '-') : c = '-' := by
  unfold Char.toUpper at h
  split at h
  · next hc =>
    -- the capital letters are no hyphens
    have hval := congrArg (fun d : Char => d.val.toNat) h
    obtain ⟨hlow, hhigh⟩ := hc
    simp only [UInt32.le_iff_toNat_le] at hlow hhigh
    simp at hval hlow hhigh
    omega
  · exact h

/-- What stands at the end of a word of a path: a dot or nothing. -/
def EndsWord (rest : Text) : Prop := ∀ c ∈ rest.head?, c = '.'

/-- What is read before any dot of a text is read from its first word. -/
theorem prefix_of_endsWord {read after : Text} (hrest : EndsWord rest)
    (h : w ++ rest = read ++ after) (hdot : '.' ∉ read) : ∀ c ∈ read, c ∈ w := by
  intro c hc
  rcases List.append_eq_append_iff.1 h with ⟨gap, rfl, hgap⟩ | ⟨gap, rfl, -⟩
  · cases gap with
    | nil => simpa using hc
    | cons d gap =>
      obtain rfl := hrest d (by rw [hgap]; rfl)
      simp at hdot
  · exact List.mem_append_left _ hc

/-- Letters that are found at the start of a text stand before any dot of it. -/
theorem exists_of_afterLetters?_word {s : String} {after : Text} (hs : '.' ∉ s.toList)
    (h : afterLetters? s.toList t = some after) :
    ∃ read, t = read ++ after ∧ read.map Char.toUpper = s.toList ∧ '.' ∉ read := by
  obtain ⟨read, hsplit, hread⟩ := exists_of_afterLetters? h
  exact ⟨read, hsplit, hread, fun hmem => hs (hread ▸ List.mem_map_of_mem (f := Char.toUpper) hmem)⟩

/-- No letters with a hyphen are found at the start of a word. -/
theorem afterLetters?_hyphen (hw : ∀ c ∈ w, isWordChar .bracketQuoted c = true)
    (hrest : EndsWord rest) {s : String} (hs : '.' ∉ s.toList) (hhyphen : '-' ∈ s.toList) :
    afterLetters? s.toList (w ++ rest) = none := by
  cases hafter : afterLetters? s.toList (w ++ rest) with
  | none => rfl
  | some after =>
    obtain ⟨read, hsplit, hread, hdot⟩ := exists_of_afterLetters?_word hs hafter
    rw [← hread] at hhyphen
    obtain ⟨c, hc, hupper⟩ := List.mem_map.1 hhyphen
    obtain rfl := eq_hyphen_of_toUpper hupper
    have hword := hw _ (prefix_of_endsWord hrest hsplit hdot _ hc)
    cases hword

/-- No blank follows letters that are found at the start of a word. -/
theorem isBlank_of_afterLetters? (hw : ∀ c ∈ w, isWordChar .bracketQuoted c = true)
    (hrest : EndsWord rest) {s : String} {after : Text} (hs : '.' ∉ s.toList)
    (h : afterLetters? s.toList (w ++ rest) = some (c :: after)) : Text.isBlank c = false := by
  cases hblank : Text.isBlank c with
  | false => rfl
  | true =>
    obtain ⟨read, hsplit, -, hdot⟩ := exists_of_afterLetters?_word hs h
    have hne : '.' ≠ c := by
      rintro rfl
      cases hblank
    have hsplit' : w ++ rest = (read ++ [c]) ++ after := by simp [hsplit]
    have hc : c ∈ w := prefix_of_endsWord hrest hsplit' (by simp [hdot, hne]) c (by simp)
    have hword := hw c hc
    simp [isWordChar, hblank] at hword

/-- A phrase has a hyphen in its only word or goes on behind a blank, so no word is part of one. -/
theorem afterPhrase?_eq_none (hw : ∀ c ∈ w, isWordChar .bracketQuoted c = true)
    (hrest : EndsWord rest) {p : List String} (hp : p ∈ Dialect.bracketQuoted.phrases) :
    afterPhrase? .bracketQuoted (p.map String.toList) (w ++ rest) = none := by
  have hphrases : ∀ p ∈ Dialect.bracketQuoted.phrases,
      (∀ s ∈ p, '.' ∉ s.toList) ∧ (2 ≤ p.length ∨ ∀ s ∈ p, '-' ∈ s.toList) := by decide
  obtain ⟨hdots, hform⟩ := hphrases p hp
  match p with
  | [] => rfl
  | [s] =>
    -- a phrase of one word has a hyphen
    have hhyphen : '-' ∈ s.toList := by simpa using hform
    have hnone := afterLetters?_hyphen hw hrest (hdots s List.mem_cons_self) hhyphen
    rw [List.map_cons, List.map_nil, afterPhrase?, hnone]
    rfl
  | first :: second :: others =>
    -- a phrase of several words has a blank behind the first
    rw [List.map_cons, List.map_cons, afterPhrase?]
    · split
      · next c after hafter =>
        rw [isBlank_of_afterLetters? hw hrest (hdots first List.mem_cons_self) hafter]
        rfl
      · rfl
    · simp

/-- **A plain word is read as a word**, up to the dot or the end of the text behind it. -/
theorem wordOrPhrase_word (hw : ∀ c ∈ w, isWordChar .bracketQuoted c = true)
    (hrest : EndsWord rest) : wordOrPhrase .bracketQuoted (w ++ rest) = (word w, rest) := by
  have hphrase : Dialect.bracketQuoted.phrases.findSome? (fun p =>
      (afterPhrase? .bracketQuoted (p.map String.toList) (w ++ rest)).map fun after =>
        (word (" ".intercalate p).toList, after)) = none := by
    refine List.findSome?_eq_none_iff.2 fun p hp => ?_
    rw [afterPhrase?_eq_none hw hrest hp]
    rfl
  unfold wordOrPhrase
  simp only
  rw [hphrase, Option.getD_none, List.takeWhile_append_of_pos hw, List.dropWhile_append_of_pos hw]
  cases rest with
  | nil => simp
  | cons c rest =>
    obtain rfl := hrest c rfl
    have hdot : isWordChar .bracketQuoted '.' = false := rfl
    simp [hdot]

/-! ## One token -/

/-- **The tokens of a text**, whatever stands before it and whatever steps are left beyond the
length of the text. -/
def Reads (t : Text) (ts : List NameToken) : Prop :=
  ∀ fuel afterSigil, t.length ≤ fuel → scan .bracketQuoted fuel afterSigil t = some ts

theorem reads_nil : Reads [] [] := by
  intro fuel afterSigil _
  cases fuel <;> rfl

/-- **One token** and then the others. -/
theorem Reads.cons {token : NameToken} {after : Text} (hblank : Text.isBlank c = false)
    (hnext : ∀ afterSigil, next? .bracketQuoted afterSigil c rest = some (token, after))
    (hshort : after.length ≤ rest.length) (h : Reads after ts) :
    Reads (c :: rest) (token :: ts) := by
  intro fuel afterSigil hfuel
  cases fuel with
  | zero => simp at hfuel
  | succ fuel =>
    have hends : endsLine c = false := by
      unfold endsLine
      by_contra hends
      simp only [Bool.or_eq_false_iff, decide_eq_false_iff_not, not_and_or, not_not] at hends
      rcases hends with rfl | rfl
      · cases hblank
      · cases hblank
    have hothers := h fuel (isSigil .bracketQuoted token || (token = comment && afterSigil))
      (by rw [List.length_cons] at hfuel; omega)
    rw [scan, hends, hblank, hnext]
    simp [hothers]

theorem Reads.dot (h : Reads rest ts) : Reads ('.' :: rest) (.dot :: ts) :=
  h.cons rfl (fun _ => rfl) (Nat.le_refl _)

theorem Reads.word (hw : IsFreeWord w) (hrest : EndsWord rest) (h : Reads rest ts) :
    Reads (w ++ rest) (.word w :: ts) := by
  obtain ⟨c, others, rfl, hdigit, hmark⟩ := hw.start
  have hchar := hw.chars c List.mem_cons_self
  have hblank : Text.isBlank c = false := by
    cases hb : Text.isBlank c with
    | false => rfl
    | true => simp [isWordChar, hb] at hchar
  have hquote : Dialect.bracketQuoted.quotes.lookup c = none := by
    refine List.lookup_eq_none_iff.2 fun q hq => bne_iff_ne.2 ?_
    have hmarks : ∀ q ∈ Dialect.bracketQuoted.quotes, isMark .bracketQuoted q.1 = true := by decide
    rintro rfl
    rw [hmarks q hq] at hmark
    cases hmark
  have hword := wordOrPhrase_word hw.chars hrest
  rw [List.cons_append] at hword ⊢
  -- the first character is no digit, no quote mark and no other mark
  refine h.cons hblank (fun afterSigil => ?_) (by simp)
  rw [next?, hdigit, hquote, hmark, hword]
  rfl

theorem body?_closings (hrest : rest.head? ≠ some ']') (body : Text) :
    body? ']' (Identifier.closings body ++ ']' :: rest) = some (body, rest) := by
  induction body with
  | nil =>
    cases rest with
    | nil => rfl
    | cons d rest =>
      have hd : d ≠ ']' := by simpa using hrest
      simp [Identifier.closings, body?, hd]
  | cons c body ih =>
    unfold Identifier.closings
    by_cases hc : c = ']'
    · rw [if_pos hc, hc]
      simp [body?, ih]
    · rw [if_neg hc, List.cons_append, body?.eq_def]
      simp only [hc, if_false, ih, Option.map_some]

theorem Reads.bracketed (hrest : EndsWord rest) (body : Text) (h : Reads rest ts) :
    Reads ('[' :: Identifier.closings body ++ [']'] ++ rest) (.quoted body :: ts) := by
  have hclose : rest.head? ≠ some ']' := by
    intro hhead
    cases hrest ']' hhead
  rw [List.cons_append, List.cons_append, List.append_assoc, List.singleton_append]
  refine h.cons rfl (fun afterSigil => ?_) (by simp; omega)
  have hbody := body?_closings hclose body
  change (quotedBody? .bracketQuoted false ']' _).map _ = _
  rw [quotedBody?, if_neg (by decide), hbody]
  rfl

end NameToken

/-! ## A path -/

open NameToken

/-- An identifier is read up to the dot or the end of the text behind it. -/
theorem Identifier.reads {i : Identifier} (hi : i.IsProper IsFreeWord) {rest : Text}
    (hrest : EndsWord rest) {ts : List NameToken} (h : Reads rest ts) :
    Reads (i.text ++ rest) (i.token :: ts) := by
  cases i with
  | plain w => exact h.word (hi.word w rfl) hrest
  | bracketed body => exact h.bracketed hrest body

namespace WrittenPath

variable {p : WrittenPath}

theorem reads_place {place : Option Identifier} (hplace : ∀ i ∈ place, i.IsProper IsFreeWord)
    {rest : Text} (hrest : EndsWord rest) {ts : List NameToken} (h : Reads rest ts) :
    Reads (placeText place ++ rest) (placeTokens place ++ ts) := by
  cases place with
  | none => exact h
  | some i => exact Identifier.reads (hplace i rfl) hrest h

theorem tokens_singleton (place : Option Identifier) : tokens [place] = placeTokens place := by
  rw [tokens, List.map_singleton, List.intercalate_singleton]

theorem tokens_cons_cons (place next : Option Identifier) (p : WrittenPath) :
    tokens (place :: next :: p) = placeTokens place ++ .dot :: tokens (next :: p) := by
  rw [tokens, List.map_cons, List.map_cons, List.intercalate_cons_cons, List.append_assoc]
  rfl

/-- **The tokens of a written path** are those of its identifiers with dots between them. -/
theorem reads (hp : ∀ i, some i ∈ p → i.IsProper IsFreeWord) : Reads p.text p.tokens := by
  induction p with
  | nil => exact reads_nil
  | cons place p ih =>
    have hplace : ∀ i ∈ place, i.IsProper IsFreeWord :=
      fun i hi => hp i (by rw [hi]; exact List.mem_cons_self)
    have hothers := ih fun i hi => hp i (List.mem_cons_of_mem _ hi)
    cases p with
    | nil =>
      have hlast := reads_place hplace (by simp [EndsWord]) reads_nil
      rw [List.append_nil, List.append_nil] at hlast
      rwa [text_singleton, tokens_singleton]
    | cons next p =>
      rw [text_cons_cons, tokens_cons_cons]
      exact reads_place hplace (by simp [EndsWord]) hothers.dot

end WrittenPath

/-! ## Tokens of a path -/

namespace NameToken

/-- The tokens that a path is written with. -/
def isOfPath : NameToken → Bool
  | dot | word _ | quoted _ => true
  | _ => false

variable {t : NameToken} {ts us : List NameToken}

theorem isSilent_of_isOfPath (h : t.isOfPath = true) : t.isSilent = false := by
  cases t with
  | comment | newline => cases h
  | _ => rfl

theorem ne_semicolon_of_isOfPath (h : t.isOfPath = true) : t ≠ semicolon := by
  rintro rfl
  cases h

theorem ne_parenthesis_of_isOfPath (h : t.isOfPath = true) : t ≠ mark '(' ∧ t ≠ mark ')' := by
  constructor
  · rintro rfl
    cases h
  · rintro rfl
    cases h

end NameToken

namespace NamePath

variable {t : NameToken} {ts us : List NameToken}

theorem annotated_of_isOfPath (h : ∀ t ∈ ts, t.isOfPath = true) (near : Bool) :
    annotated false near false ts = false := by
  induction ts generalizing near with
  | nil => rfl
  | cons t ts ih =>
    have hothers := ih fun t ht => h t (List.mem_cons_of_mem _ ht)
    have ht := h t List.mem_cons_self
    cases t with
    | comment | newline | semicolon => cases ht
    | _ => exact hothers true

theorem filter_isSilent_of_isOfPath (h : ∀ t ∈ ts, t.isOfPath = true) :
    ts.filter (!·.isSilent) = ts := by
  refine List.filter_eq_self.2 fun t ht => ?_
  rw [isSilent_of_isOfPath (h t ht)]
  rfl

/-- Tokens of a path are one statement. -/
theorem statements_of_isOfPath (h : ∀ t ∈ ts, t.isOfPath = true) : statements ts = [ts] := by
  have hne : ∀ t ∈ ts, t ≠ semicolon := fun t ht => ne_semicolon_of_isOfPath (h t ht)
  have hlast : ts.getLast? ≠ some semicolon :=
    fun hlast => hne _ (List.mem_of_getLast? hlast) rfl
  unfold statements
  simp only
  rw [filter_isSilent_of_isOfPath h, if_neg hlast]
  exact List.splitOnP_eq_singleton fun t ht => decide_eq_false (hne t ht)

theorem places_of_isOfPath (h : ∀ t ∈ ts, t.isOfPath = true) (hdot : dot ∉ ts) :
    places 0 ts = [ts] := by
  induction ts with
  | nil => rfl
  | cons t ts ih =>
    obtain ⟨ht, hdot⟩ := not_or.1 (mt List.mem_cons.2 hdot)
    obtain ⟨hopen, hclose⟩ := ne_parenthesis_of_isOfPath (h t List.mem_cons_self)
    have hothers := ih (fun t ht => h t (List.mem_cons_of_mem _ ht)) hdot
    simp [places, Ne.symm ht, hopen, hclose, hothers]

theorem places_append_dot (h : ∀ t ∈ ts, t.isOfPath = true) (hdot : dot ∉ ts) :
    places 0 (ts ++ dot :: us) = ts :: places 0 us := by
  induction ts with
  | nil => simp [places]
  | cons t ts ih =>
    obtain ⟨ht, hdot⟩ := not_or.1 (mt List.mem_cons.2 hdot)
    obtain ⟨hopen, hclose⟩ := ne_parenthesis_of_isOfPath (h t List.mem_cons_self)
    have hothers := ih (fun t ht => h t (List.mem_cons_of_mem _ ht)) hdot
    rw [List.cons_append]
    simp [places, Ne.symm ht, hopen, hclose, hothers]

end NamePath

/-! ## The parts of a path -/

namespace WrittenPath

variable {p : WrittenPath}

theorem withoutTemporaryMarks_eq_self {body : Text} (h : body.head? ≠ some '#') (count : Nat) :
    NamePart.withoutTemporaryMarks .bracketQuoted count body = body := by
  cases body with
  | nil => cases count <;> rfl
  | cons c body =>
    cases count with
    | zero => rfl
    | succ count =>
      have hc : Dialect.bracketQuoted.temporaryMark ≠ some c := fun hmark => h hmark.symm
      rw [NamePart.withoutTemporaryMarks, if_neg hc]

theorem isOfPath_of_mem_placeTokens {place : Option Identifier} {t : NameToken}
    (h : t ∈ placeTokens place) : t.isOfPath = true ∧ t ≠ dot := by
  obtain ⟨i, -, rfl⟩ := Option.map_eq_some_iff.1 (Option.mem_toList.1 h)
  cases i with
  | plain w => exact ⟨rfl, nofun⟩
  | bracketed body => exact ⟨rfl, nofun⟩

theorem isOfPath_of_mem_tokens {t : NameToken} (h : t ∈ p.tokens) : t.isOfPath = true := by
  induction p with
  | nil => cases h
  | cons place p ih =>
    cases p with
    | nil =>
      rw [tokens_singleton] at h
      exact (isOfPath_of_mem_placeTokens h).1
    | cons next p =>
      rw [tokens_cons_cons] at h
      rcases List.mem_append.1 h with hplace | hothers
      · exact (isOfPath_of_mem_placeTokens hplace).1
      · rcases List.mem_cons.1 hothers with rfl | hothers
        · rfl
        · exact ih hothers

/-- The tokens in the places of a path stand between its dots. -/
theorem places_tokens (place : Option Identifier) (p : WrittenPath) :
    NamePath.places 0 (tokens (place :: p)) = (place :: p).map placeTokens := by
  have hplace : ∀ t ∈ placeTokens place, t.isOfPath = true :=
    fun t ht => (isOfPath_of_mem_placeTokens ht).1
  have hdot : dot ∉ placeTokens place := fun hmem => (isOfPath_of_mem_placeTokens hmem).2 rfl
  induction p generalizing place with
  | nil =>
    rw [tokens_singleton, NamePath.places_of_isOfPath hplace hdot]
    rfl
  | cons next p ih =>
    have hothers := ih next (fun t ht => (isOfPath_of_mem_placeTokens ht).1)
      fun hmem => (isOfPath_of_mem_placeTokens hmem).2 rfl
    rw [tokens_cons_cons, NamePath.places_append_dot hplace hdot, hothers]
    rfl

theorem ofTokens?_placeTokens {place : Option Identifier}
    (hplace : ∀ i ∈ place, i.IsProper IsFreeWord) (hmark : ∀ i ∈ place, i.name.head? ≠ some '#') :
    NamePart.ofTokens? .bracketQuoted (placeTokens place) =
      some (place.map fun i => .identifier i.name) := by
  match place with
  | none => rfl
  | some (.plain w) =>
    have hword := ((hplace _ rfl).word w rfl).unreserved
    change (if Dialect.bracketQuoted.isReserved w then none else some (some _)) = _
    rw [hword]
    rfl
  | some (.bracketed body) =>
    change some (some (NamePart.identifier (NamePart.withoutTemporaryMarks _ 2 body))) = _
    have hbody : body.head? ≠ some '#' := hmark _ rfl
    rw [withoutTemporaryMarks_eq_self hbody]
    rfl

theorem mapM_placeTokens (hp : ∀ i, some i ∈ p → i.IsProper IsFreeWord) (hmarks : p.IsUnmarked) :
    (p.map placeTokens).mapM (NamePart.ofTokens? .bracketQuoted) = some p.parts := by
  induction p with
  | nil => rfl
  | cons place p ih =>
    have hothers := ih (fun i hi => hp i (List.mem_cons_of_mem _ hi))
      fun i hi => hmarks i (List.mem_cons_of_mem _ hi)
    have hplace : NamePart.ofTokens? .bracketQuoted (placeTokens place) =
        some (place.map fun i => .identifier i.name) :=
      ofTokens?_placeTokens (fun i hi => hp i (by rw [hi]; exact List.mem_cons_self))
        fun i hi => hmarks i (by rw [hi]; exact List.mem_cons_self)
    rw [List.map_cons, List.mapM_cons, hplace, hothers]
    rfl

/-- A path of free words is no command. -/
theorem isCommand_tokens (hp : p.IsProper IsFreeWord) :
    NamePath.isCommand .bracketQuoted p.tokens = false := by
  obtain ⟨i, rest, rfl⟩ := hp.first
  cases i with
  | bracketed body => cases rest <;> rfl
  | plain w =>
    have hword := ((hp.identifiers _ List.mem_cons_self).word w rfl).noCommand
    cases rest with
    | nil => exact Bool.and_false _
    | cons next rest =>
      change (Dialect.bracketQuoted.isCommand w && _) = false
      rw [hword, Bool.false_and]

theorem isProper_parts (hp : p.IsProper IsFreeWord) :
    NamePath.isProper p.parts = true ↔ none ∉ p.drop 3 := by
  have hne : p.parts ≠ [] ∧ p.parts.getLast? ≠ some none := by
    obtain ⟨front, i, rfl⟩ := hp.last
    simp [parts]
  have hnone : (none : Option NamePart) ∈ p.parts.drop 3 ↔ none ∈ p.drop 3 := by
    rw [parts, ← List.map_drop]
    simp only [List.mem_map, Option.map_eq_none_iff, exists_eq_right]
  rw [← hnone]
  simp [NamePath.isProper, hne]

/-- **The parts that a written path is read as.** Nothing may be left out after its third part. -/
theorem batch?_tokens (hp : p.IsProper IsFreeWord) (hmarks : p.IsUnmarked) :
    NamePath.batch? .bracketQuoted p.tokens =
      if none ∈ p.drop 3 then none else some [p.parts] := by
  have htokens : ∀ t ∈ p.tokens, t.isOfPath = true := fun t ht => isOfPath_of_mem_tokens ht
  have hplaces : NamePath.places 0 p.tokens = p.map placeTokens := by
    obtain ⟨i, rest, rfl⟩ := hp.first
    exact places_tokens _ _
  -- the first place is filled, so none is dropped at the start
  have hdrop : p.parts.dropWhile (· = none) = p.parts := by
    obtain ⟨i, rest, rfl⟩ := hp.first
    rfl
  have hpath : NamePath.ofTokens? .bracketQuoted p.tokens =
      if NamePath.isProper p.parts then some p.parts else none := by
    rw [NamePath.ofTokens?, isCommand_tokens hp,
      NamePath.filter_isSilent_of_isOfPath htokens, hplaces,
      mapM_placeTokens hp.identifiers hmarks]
    simp [hdrop]
  rw [NamePath.batch?, NamePath.annotated_of_isOfPath htokens,
    NamePath.statements_of_isOfPath htokens]
  by_cases hnone : none ∈ p.drop 3
  · have hproper : NamePath.isProper p.parts = false :=
      Bool.eq_false_iff.2 fun h => (isProper_parts hp).1 h hnone
    simp [hpath, hproper, hnone]
  · simp [hpath, (isProper_parts hp).2 hnone, hnone]

end WrittenPath

/-! ## The reader -/

namespace NamePath

variable {p : WrittenPath} {t : Text}

theorem ofPieces_eq_error (h : 4 ≤ (t.splitOn '.').length) :
    ofPieces t = .error (.raised .tooManyNameParts) := by
  unfold ofPieces
  split
  · next hsplit => simp [hsplit] at h
  · next hsplit => simp [hsplit] at h
  · next hsplit => simp [hsplit] at h
  · rfl

/-- A text has at least as many pieces as a path that it is written as has places. -/
theorem length_le_splitOn (place : Option Identifier) (p : WrittenPath) :
    (place :: p).length ≤ ((WrittenPath.text (place :: p)).splitOn '.').length := by
  induction p generalizing place with
  | nil => exact List.length_pos_iff.2 (List.splitOnP_ne_nil _ _)
  | cons next p ih =>
    have hothers := ih next
    have hplace : 0 < ((WrittenPath.placeText place).splitOn '.').length :=
      List.length_pos_iff.2 (List.splitOnP_ne_nil _ _)
    have hsplit : (WrittenPath.placeText place ++ '.' :: WrittenPath.text (next :: p)).splitOn '.' =
        (WrittenPath.placeText place).splitOn '.' ++ (WrittenPath.text (next :: p)).splitOn '.' :=
      List.splitOnP_append_cons _ _ rfl
    rw [WrittenPath.text_cons_cons, hsplit, List.length_append]
    simp only [List.length_cons] at hothers ⊢
    omega

theorem toParts_parts (p : WrittenPath) : toParts p.parts = p.asParts := by
  have hname : ∀ place : Option Identifier,
      (place.map fun i => NamePart.identifier i.name).elim [] NamePart.name =
        WrittenPath.placeName place := by
    intro place
    cases place <;> rfl
  have hqualifier : ∀ place : Option Identifier,
      (place.map fun i => NamePart.identifier i.name).elim [] NamePart.qualifier =
        WrittenPath.placeName place := by
    intro place
    cases place <;> rfl
  have hfront : (p.parts.dropLast.map fun place => place.elim [] NamePart.qualifier) =
      p.dropLast.map WrittenPath.placeName := by
    rw [WrittenPath.parts, ← List.map_dropLast, List.map_map]
    exact List.map_congr_left fun place _ => hqualifier place
  have hlast : p.parts.getLast?.join.elim [] NamePart.name =
      WrittenPath.placeName p.getLast?.join := by
    rw [← hname, WrittenPath.parts, List.getLast?_map]
    cases p.getLast? <;> rfl
  rw [toParts, WrittenPath.asParts, hfront, hlast]
  cases p.dropLast with
  | nil => rfl
  | cons first others => cases others <;> rfl

/-- **What the reader gives for a written path.** It gives nothing when a part after the third is
left out, since the text is then cut at its dots and has too many of them. -/
theorem read_text (hp : p.IsProper IsFreeWord) (hmarks : p.IsUnmarked) :
    read PathReader.bracketDialect p.text =
      if none ∈ p.drop 3 then .error (.raised .tooManyNameParts) else .ok p.asParts := by
  have hdialect : Dialect.ofText PathReader.bracketDialect = .ok .bracketQuoted := rfl
  have htokens : NameToken.ofText? .bracketQuoted p.text = some p.tokens :=
    WrittenPath.reads hp.identifiers p.text.length false (Nat.le_refl _)
  have hbatch := WrittenPath.batch?_tokens hp hmarks
  unfold read
  simp only [hdialect, htokens, hbatch]
  by_cases hnone : none ∈ p.drop 3
  · have hpieces : ofPieces p.text = .error (.raised .tooManyNameParts) := by
      have hlength := List.length_pos_of_mem hnone
      rw [List.length_drop] at hlength
      obtain ⟨i, rest, rfl⟩ := hp.first
      have hsplit := length_le_splitOn (some i) rest
      exact ofPieces_eq_error (by omega)
    simp only [hnone, if_true, hpieces]
  · simp only [hnone, if_false, toParts_parts]

end NamePath

/-- **The name of a written path** that a call has, with the places that are kept of the path. -/
theorem ProcName.ofText_text_eq_ok_iff {p : WrittenPath} {n : ProcName}
    (hp : p.IsProper IsFreeWord) (hmarks : p.IsUnmarked) :
    ofText PathReader.bracketDialect p.text = .ok n ↔
      none ∉ p.drop 3 ∧ n.places = p.kept.names := by
  have hname := hp.asParts_name_ne
  rw [ofText, qualify_eq_ok_iff, NamePath.read_text hp hmarks, ← places_ofParts hp, places_inj]
  by_cases hnone : none ∈ p.drop 3
  · simp [hnone]
  · simp [hnone, hname]

end ProcCall
