import ProcCall.Proofs.Lossless
import ProcCall.Proofs.Spacing
import ProcCall.Proofs.Stages
import ProcCall.Proofs.Viability

/-!
# Messages that mark a token in the argument text

An error of an argument text shows the text with the offending token in brackets. The tokens of a
text end with the end of the input, which closes a slot, so the text never ends too early: the
error is an unexpected token. Its characters stand in the text at its position, and the brackets
around them are all that the message adds. The end of the input has characters of its own, which
are no part of the text; it is unexpected only where a value is missing, and it is shown after the
whole text.

* `Text.marked`: a text with some of its characters in brackets.
* `Token.place_of_mem`: where a token stands in its text.
* `Slot.error_of_ofText`: which errors an argument text can have.
* `Slot.message_marks_token`: the message of such an error.
-/

namespace ProcCall

open Outcome

variable {config : Config} {t text : Text} {token : Token} {ts : List Token} {state : SlotState}

/-! ## Texts -/

namespace Text

theorem clampIndex_natCast (length n : Nat) : clampIndex length n = n := by
  have hnat : ¬ (n : Int) < 0 := by omega
  rw [clampIndex, if_neg hnat, Int.toNat_natCast]

theorem before_natCast (t : Text) (n : Nat) : t.before n = t.take n := by
  rw [before, clampIndex_natCast]

theorem onward_natCast (t : Text) (n : Nat) : t.onward n = t.drop n := by
  rw [onward, clampIndex_natCast]

theorem stripStart_eq_self (h : ∀ c ∈ t.head?, isBlank c = false) : stripStart t = t := by
  cases t with
  | nil => rfl
  | cons c t => exact List.dropWhile_cons_of_neg (by simp [h c rfl])

/-- A text without blanks at its ends is left as it is. -/
theorem strip_eq_self (hfirst : ∀ c ∈ t.head?, isBlank c = false)
    (hlast : ∀ c ∈ t.getLast?, isBlank c = false) : strip t = t := by
  have hreverse : ∀ c ∈ t.reverse.head?, isBlank c = false := by rwa [List.head?_reverse]
  rw [strip, stripStart_eq_self hfirst, stripStart_eq_self hreverse, List.reverse_reverse]

/-- A text is shown between quote marks. -/
theorem display_eq (t : Text) : ∃ quote shown, isBlank quote = false ∧
    t.display.toList = quote :: (shown ++ [quote]) := by
  have hquote : isBlank t.displayQuote = false := by
    unfold displayQuote
    split <;> rfl
  refine ⟨t.displayQuote, (t.foldl (fun s c => s ++ displayChar t.displayQuote c) "").toList,
    hquote, ?_⟩
  simp [display]

/-- A text with the characters `value` in brackets in place of those that start at `p`. -/
def marked (t value : Text) (p : Nat) : Text :=
  t.take p ++ ['»'] ++ value ++ ['«'] ++ t.drop (p + value.length)

end Text

/-! ## Tokens in their text -/

namespace Lexeme

/-- Placed lexemes stand where their characters do. -/
theorem exists_around_of_mem_placed {position : Int} {ls : List Lexeme}
    (h : token ∈ placed position ls) : ∃ a b, spelled ls = a ++ (token.value ++ b) ∧
      token.position = position + (a.length : Int) := by
  induction ls generalizing position with
  | nil => cases h
  | cons l rest ih =>
    rcases List.mem_cons.1 h with rfl | hrest
    · exact ⟨[], spelled rest, rfl, by simp⟩
    · -- the characters of the first lexeme come before
      obtain ⟨a, b, htext, hposition⟩ := ih hrest
      refine ⟨l.value ++ a, b, by rw [spelled_cons, htext, List.append_assoc], ?_⟩
      rw [hposition, List.length_append, Int.natCast_add, Int.add_assoc]

end Lexeme

/-- **Where a token stands in its text**: its characters are those at its position, and only the
end of the input stands after the text. -/
theorem Token.place_of_mem (h : Token.ofText t = .ok ts) (ht : token ∈ ts) :
    (∃ a b, t = a ++ (token.value ++ b) ∧ token.position = a.length ∧
      token.kind ≠ .endOfInput) ∨ token = .atEnd t.length := by
  obtain ⟨ls, hls, rfl⟩ := Token.ofText_eq_ok_iff.1 h
  rw [Lexeme.place_eq_placed, hls.text, Int.zero_add] at ht
  rcases List.mem_append.1 ht with ht | ht
  · obtain ⟨a, b, htext, hposition⟩ := Lexeme.exists_around_of_mem_placed ht
    have hform : token.lexeme.WellFormed := Lexeme.wellFormed_placed hls.form ht
    have hkind : token.kind ≠ .endOfInput := by
      intro hend
      unfold Token.lexeme Lexeme.WellFormed at hform
      rw [hend] at hform
      exact hform
    rw [hls.text] at htext
    exact .inl ⟨a, b, htext, by rw [hposition, Int.zero_add], hkind⟩
  · exact .inr (List.mem_singleton.1 ht)

/-- **A token in brackets**: without the brackets the text is what it was, and the end of the
input stands after all of it. -/
theorem Token.marked_of_mem (h : Token.ofText t = .ok ts) (ht : token ∈ ts) :
    ∃ p : Nat, token.position = p ∧
      (token.kind ≠ .endOfInput →
        t.take p ++ token.value ++ t.drop (p + token.value.length) = t) ∧
      (token.kind = .endOfInput → p = t.length ∧
        Text.marked t token.value p = t ++ "»[end of input]«".toList) := by
  rcases Token.place_of_mem h ht with ⟨a, b, rfl, hp, hkind⟩ | rfl
  · refine ⟨a.length, hp, fun _ => ?_, fun hend => absurd hend hkind⟩
    rw [List.take_left, List.drop_length_add_append, List.drop_left, List.append_assoc]
  · refine ⟨t.length, rfl, fun hkind => absurd rfl hkind, fun _ => ⟨rfl, ?_⟩⟩
    have hdrop : t.drop (t.length + Token.endValue.length) = [] :=
      List.drop_eq_nil_of_le (Nat.le_add_right _ _)
    unfold Text.marked Token.atEnd
    rw [List.take_length, hdrop, List.append_nil, List.append_assoc, List.append_assoc]
    rfl

/-! ## The errors of an argument text -/

namespace Slot

open Progress

/-- Tokens that end with one that closes a slot do not end too early. -/
theorem ofTokens_concat_ne_unexpectedEnd {last : Token} (hc : last.closes = true) :
    ofTokens config (ts ++ [last]) ≠ .error (.unexpectedEnd token state none) := by
  intro h
  obtain ⟨slots, q, hrun, hq, -, -⟩ := readFrom_eq_unexpectedEnd_iff.1 h
  obtain ⟨others, p, closed, -, hstep, -⟩ := run?_concat_eq_some_iff.1 hrun
  have hblank : last.kind ≠ .blank := by
    intro hblank
    simp [Token.closes, hblank] at hc
  exact hq ((eq_start_iff_of_step? hstep hblank).2 hc)

/-- The end of the input is unexpected only where a value is missing. -/
theorem state_of_unexpected_endOfInput
    (h : ofTokens config ts = .error (.unexpectedToken token state none))
    (ht : token.kind = .endOfInput) : state = .expectValue := by
  obtain ⟨_, _, _, q, -, -, hstop, rfl⟩ := readFrom_eq_unexpectedToken_iff.1 h
  have hc : token.closes = true := by simp [Token.closes, ht]
  cases q with
  | start => rw [step?_end ht] at hstop; cases hstop
  | expectValue name => rfl
  | positional | positionalOutput | named | namedOutput =>
    -- the end of the input closes the slot
    rw [step?_close hc rfl] at hstop
    cases hstop

/-- **The errors of an argument text**: an open literal, or an unexpected token of the text. The
token is no blank, and it is the end of the input only where a value is missing. -/
theorem error_of_ofText {e : Error} (h : ofText config text = .error e) :
    e = .unclosedQuote text.length .quoted ∨ ∃ ts token state, Token.ofText text = .ok ts ∧
      e = .unexpectedToken token state (some text) ∧ token ∈ ts ∧ token.kind ≠ .blank ∧
        (token.kind = .endOfInput → state = .expectValue) := by
  rcases ofText_eq_error_iff.1 h with hlex | ⟨ts, htokens, cause, hcause, rfl⟩
  · exact .inl (Token.eq_unclosedQuote_of_ofText hlex)
  · obtain ⟨token, state, rfl | rfl⟩ := readFrom_error hcause
    · obtain ⟨before, after, _, _, rfl, -, -, -⟩ := readFrom_eq_unexpectedToken_iff.1 hcause
      exact .inr ⟨_, token, state, htokens, rfl, by simp, not_blank_of_unexpectedToken hcause,
        state_of_unexpected_endOfInput hcause⟩
    · -- the tokens end with the end of the input
      obtain ⟨ls, -, rfl⟩ := Token.ofText_eq_ok_iff.1 htokens
      rw [Lexeme.place_eq_placed] at hcause
      exact absurd hcause (ofTokens_concat_ne_unexpectedEnd rfl)

end Slot

/-! ## Messages -/

namespace Report

variable {r : Report} {p : Nat}

/-- A message that shows a text marks the token in it. -/
theorem message_eq_marked (h : r.topic = .argument token state (some text)) (hne : text ≠ [])
    (hp : token.position = p) : r.message = r.plainMessage ++ " at position ".toList ++
      (toString p).toList ++ " (bracketed with » and « below)\n".toList ++
      text.marked token.value p := by
  obtain ⟨c, rest, rfl⟩ := List.exists_cons_of_ne_nil hne
  have hend : token.position + token.value.length = ((p + token.value.length : Nat) : Int) := by
    rw [hp, Int.natCast_add]
  have hshown : toString (p : Int) = toString p := rfl
  unfold message
  rw [h]
  simp only [hp, Text.before_natCast, hshown]
  rw [← hp, hend, Text.onward_natCast]
  unfold Text.marked
  simp only [List.append_assoc]

/-- A statement without blanks at its ends is told as it is. -/
theorem plainMessage_stated (topic : Topic) {message : Text}
    (hfirst : ∀ c ∈ message.head?, Text.isBlank c = false)
    (hlast : ∀ c ∈ message.getLast?, Text.isBlank c = false) :
    (stated topic message).plainMessage = message := by
  have hjoined : Text.unwords [message] = message := by simp [Text.unwords]
  unfold plainMessage stated
  rw [List.nil_append, hjoined]
  exact Text.strip_eq_self hfirst hlast

end Report

namespace Error

variable {e : Error} {r : Report} {input : Option Text}

theorem message_of_report? (h : e.report? = some r) : e.message = r.message := by
  unfold message
  split
  · next r' hr =>
    rw [h] at hr
    cases hr
    rfl
  · next hnone =>
    rw [h] at hnone
    cases hnone

/-- The plain message of an unexpected token tells its characters. -/
theorem plainMessage_unexpectedToken (h : (unexpectedToken token state input).report? = some r) :
    r.plainMessage = "Error in parsing: unexpected ".toList ++ token.value.display.toList := by
  obtain ⟨quote, shown, hquote, hdisplay⟩ := Text.display_eq token.value
  cases h
  rw [String.toList_append]
  refine Report.plainMessage_stated _ ?_ ?_
  · rintro _ ⟨⟩
    rfl
  · rw [hdisplay, ← List.cons_append, ← List.append_assoc, List.getLast?_concat]
    rintro _ ⟨⟩
    exact hquote

end Error

namespace Slot

variable {e : Error} {r : Report} {input : Option Text}

/-- **The message marks the token in the text.** An error about the argument list of a text is an
unexpected token of it, never that the text ends too early. The token is no blank, and it is the
end of the input only where a value is missing. The message is the plain one, the position, and the
text with the token in brackets. Without the brackets that is the text itself, and for the end of
the input it is the text with the characters for its end after it. -/
theorem message_marks_token (h : ofText config text = .error e) (hr : e.report? = some r)
    (htopic : r.topic = .argument token state input) :
    input = some text ∧ e = .unexpectedToken token state (some text) ∧
      (∃ ts, Token.ofText text = .ok ts ∧ token ∈ ts) ∧ token.kind ≠ .blank ∧
      (token.kind = .endOfInput → state = .expectValue) ∧
      r.plainMessage = "Error in parsing: unexpected ".toList ++ token.value.display.toList ∧
      ∃ p : Nat, token.position = p ∧
        e.message = r.plainMessage ++ " at position ".toList ++ (toString p).toList ++
          " (bracketed with » and « below)\n".toList ++ text.marked token.value p ∧
        (token.kind ≠ .endOfInput →
          text.take p ++ token.value ++ text.drop (p + token.value.length) = text) ∧
        (token.kind = .endOfInput → p = text.length ∧
          text.marked token.value p = text ++ "»[end of input]«".toList) := by
  have hne : text ≠ [] := by
    -- no arguments are no error
    rintro rfl
    cases h
  rcases error_of_ofText h with rfl | ⟨ts, token', state', hts, rfl, hmem, hblank, hend⟩
  · -- an open literal is no error about the argument list
    cases hr
    cases htopic
  · have htopic' : r.topic = .argument token' state' (some text) := by
      cases hr
      rfl
    rw [htopic] at htopic'
    obtain ⟨rfl, rfl, rfl⟩ := Topic.argument.inj htopic'
    obtain ⟨p, hp, hmarked⟩ := Token.marked_of_mem hts hmem
    refine ⟨rfl, rfl, ⟨ts, hts, hmem⟩, hblank, hend, Error.plainMessage_unexpectedToken hr, p, hp,
      ?_, hmarked⟩
    rw [Error.message_of_report? hr, Report.message_eq_marked htopic hne hp]

/-- A keyword without a blank before it, and a name without a value. -/
theorem message_marks_token_of_both :
    let glued : Text := "5, 'x'out".toList
    let word : Token := ⟨.text, "out".toList, 6⟩
    let unfinished : Text := "@a = ".toList
    ofText .standard glued = .error (.unexpectedToken word .positional (some glued)) ∧
      (Error.unexpectedToken word .positional (some glued)).message =
        ("Error in parsing: unexpected 'out' at position 6 " ++
          "(bracketed with » and « below)\n5, 'x'»out«").toList ∧
      ofText .standard unfinished =
        .error (.unexpectedToken (.atEnd 5) .expectValue (some unfinished)) ∧
      Text.marked unfinished Token.endValue 5 = unfinished ++ "»[end of input]«".toList := by
  intro glued word unfinished
  have hglued : ofText .standard glued =
    .error (.unexpectedToken word .positional (some glued)) := rfl
  have hunfinished : ofText .standard unfinished =
    .error (.unexpectedToken (.atEnd 5) .expectValue (some unfinished)) := rfl
  obtain ⟨-, -, -, -, -, hplain, p, hp, hmessage, -, -⟩ :=
    message_marks_token hglued rfl rfl
  obtain ⟨-, -, -, -, -, -, p', hp', -, -, hend⟩ := message_marks_token hunfinished rfl rfl
  obtain ⟨rfl, hmarked⟩ := hend rfl
  refine ⟨hglued, ?_, hunfinished, hmarked⟩
  obtain rfl : p = 6 := (Int.ofNat.inj hp).symm
  rw [hmessage, hplain]
  decide

end Slot

end ProcCall
