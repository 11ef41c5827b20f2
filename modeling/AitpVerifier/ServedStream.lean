import Mathlib.Data.List.TakeWhile
import AitpVerifier.AdapterResponses
import AitpVerifier.Recorded

/-!
# A served stream

The loop answers every line of a stream it was meant to answer when each of them can be
read, and none of them makes it write a statement that has no line of JSON. What one line
does is said once, whether the loop goes on included.
-/
namespace AitpVerifier

open PyText Checked Json JsonGrammar

section

variable (P : Platform) (D : Deployment) (E : Encoder)

/-- The line is a request to shut down. -/
def shutsDown (line : Line) : Bool :=
  match parseLine P line with
  | .ok request => isShutdown request
  | .error _ => false

/-- The lines an answer is due to: those that are not blank, up to a request to shut down. -/
def due : List Line → List Line
  | [] => []
  | line :: rest =>
    if isBlank line.1 then due rest
    else if shutsDown P line then [line]
    else line :: due rest

/-- One line of JSON, whose first member is the request's id when that is a string. -/
def LineAnswered (line : Line) (written : Text) : Prop :=
  ∃ body, written = body ++ [0x0A] ∧ 0x0A ∉ body ∧ Element body ∧
    ∀ request rid, parseLine P line = .ok request → request.get (txt "id") = .str rid →
      ∃ rest, body = txt "\x7b\"id\":" ++ dumpsString rid ++ [0x2C] ++ rest

/-- The stream is served to its end, with one answer for each line that is due one. -/
structure ServesAll (s : AdapterState) (lines : List Line) : Prop where
  ended : (serve P D E s lines).ended = .ok 0
  answered : List.Forall₂ (LineAnswered P) (due P lines) (serve P D E s lines).written

/-- The line can be read, and the statement it asks for, if it asks for one, can be written. -/
structure LineMeets (s : AdapterState) (line : Line) : Prop where
  readable : Readable P.toInterpreter (rstripEnd line.1)
  statement : ∀ request, parseLine P line = .ok request → ∀ statement, Attests P D s request statement →
    statement.Finite ∧ statement.Nests (E.levels - 2)

/-- The state a line that is answered leaves. -/
def stateAfter (s : AdapterState) (line : Line) : AdapterState :=
  match parseLine P line with
  | .ok request => (handle P D s line.2 request).2
  | .error _ => s

/-- Every line that an answer is due to can be answered, in the state it comes in. -/
def Meets (s : AdapterState) : List Line → Prop
  | [] => True
  | line :: rest =>
    if isBlank line.1 then Meets s rest
    else LineMeets P D E s line ∧ (shutsDown P line = false → Meets (stateAfter P D s line) rest)

end

variable {P : Platform} {D : Deployment} {E : Encoder}

/-! ### One answer -/

/-- An answer can be written when the statement in it can. -/
theorem answer_iff {s : AdapterState} {random : Bytes} {request : Members} :
    (∃ body, (handle P D s random request).1.write E = .ok (body ++ [0x0A]) ∧ Element body) ↔
      ∀ statement, Attests P D s request statement → statement.Finite ∧ statement.Nests (E.levels - 2) := by
  rcases handle_response s random request (P := P) (D := D) with hplain | ⟨statement, hattests⟩
  · refine iff_of_true (write_simple hplain.simple) fun statement hattests => ?_
    have hsimple := hplain.simple
    rw [(hattests.response random).1] at hsimple
    have hstatement := hsimple _ List.mem_cons_self
    have hroom : 1 ≤ E.levels - 2 := by
      have := E.deep
      omega
    exact ⟨hstatement.finite, hstatement.nests.mono hroom⟩
  · obtain ⟨hanswer, hshort⟩ := hattests.response random
    have hwrite := @write_iff E (.ok (requestId request) [(txt "statement", statement)]) (by simpa [Response.result] using hshort)
    rw [hanswer, hwrite]
    constructor
    · intro h found hfound
      have hsame := hanswer.symm.trans (hfound.response random).1
      cases hsame
      exact h _ List.mem_cons_self
    · intro h m hm
      obtain rfl := List.mem_singleton.mp hm
      exact h statement hattests

theorem handle_id (s : AdapterState) (random : Bytes) (request : Members) :
    (handle P D s random request).1.id = requestId request := by
  rcases handle_response s random request (P := P) (D := D) with hplain | ⟨statement, hattests⟩
  · exact hplain.named
  · rw [(hattests.response random).1]
    rfl

/-- An object that starts with a string is written with the string first. -/
theorem dumps_first {levels : Nat} {key s text : Text} {m : Text × JsonValue} {rest : Members}
    (h : dumps levels (.dict ((key, .str s) :: m :: rest)) = .ok text) :
    ∃ after, text = [0x7B] ++ dumpsString key ++ [0x3A] ++ dumpsString s ++ [0x2C] ++ after := by
  cases levels with
  | zero => cases h
  | succ levels =>
    simp only [dumps, collect, bind_eq_ok, Except.ok.injEq] at h
    obtain ⟨_, ⟨_, ⟨_, rfl, rfl⟩, _, ⟨second, _, others, _, rfl⟩, rfl⟩, rfl⟩ := h
    refine ⟨commas (second :: others) ++ [0x7D], ?_⟩
    simp [commas, List.append_assoc]

theorem write_id {response : Response} {body : Text} (h : response.write E = .ok (body ++ [0x0A])) :
    ∃ rest, body = txt "\x7b\"id\":" ++ dumpsString response.id ++ [0x2C] ++ rest := by
  obtain ⟨text, hdumps, htext⟩ := write_eq_ok.mp h
  obtain rfl := List.append_cancel_right htext
  have hname : txt "\x7b\"id\":" = [0x7B] ++ dumpsString (txt "id") ++ [0x3A] := by decide
  rw [hname]
  cases response with
  | ok rid result => exact dumps_first hdumps
  | err rid code message => exact dumps_first hdumps

/-- What is written of an answer is one line. -/
theorem write_line {response : Response} {text : Text} (h : response.write E = .ok text) :
    ∃ body, text = body ++ [0x0A] ∧ 0x0A ∉ body := by
  obtain ⟨body, hdumps, rfl⟩ := write_eq_ok.mp h
  exact ⟨body, rfl, fun hmem => absurd (dumps_printed hdumps _ hmem) (by decide)⟩

/-! ### One line -/

theorem serveLine_ok {s s' : AdapterState} {line : Line} {text : Text} {last : Bool}
    (h : serveLine P D E s line = .ok (text, last, s')) : last = shutsDown P line ∧ s' = stateAfter P D s line := by
  rw [serveLine] at h
  rw [shutsDown, stateAfter]
  cases hparse : parseLine P line with
  | error e =>
    rw [hparse] at h
    dsimp only at h
    split at h
    · obtain ⟨_, _, h⟩ := bind_eq_ok.mp h
      cases h
      exact ⟨rfl, rfl⟩
    · cases h
  | ok request =>
    rw [hparse] at h
    obtain ⟨_, _, h⟩ := bind_eq_ok.mp h
    cases h
    exact ⟨rfl, rfl⟩

/-- A line that cannot be read ends the process. -/
theorem serveLine_unreadable {s : AdapterState} {line : Line} (h : ¬ Readable P.toInterpreter (rstripEnd line.1)) :
    ∃ e, serveLine P D E s line = .error e := by
  rw [readable_iff, FailsWith] at h
  push Not at h
  obtain ⟨e, he, hkind⟩ := h
  refine ⟨e, ?_⟩
  rw [serveLine, parseLine, he]
  exact if_neg hkind

/-- A line gets its answer when it meets the condition, and only then. -/
theorem serveLine_answers {s : AdapterState} {line : Line} :
    LineMeets P D E s line ↔
      ∃ text, serveLine P D E s line = .ok (text, shutsDown P line, stateAfter P D s line) ∧ LineAnswered P line text := by
  have hreadable := @readable_iff P.toInterpreter (rstripEnd line.1)
  cases hparse : parseLine P line with
  | error e =>
    have hlast : shutsDown P line = false := by rw [shutsDown, hparse]
    have hafter : stateAfter P D s line = s := by rw [stateAfter, hparse]
    by_cases hkind : e.isKind .malformedRequest = true
    · refine iff_of_true ⟨hreadable.mpr fun e' he' => ?_, fun request hrequest => ?_⟩ ?_
      · cases hparse.symm.trans he'
        exact hkind
      · cases hparse.symm.trans hrequest
      · obtain ⟨body, hwrite, helement⟩ := @write_simple E (malformedRequest (txt "unknown") e.text) Members.simple_nil
        obtain ⟨_, heq, hline⟩ := write_line hwrite
        obtain rfl := List.append_cancel_right heq
        refine ⟨body ++ [0x0A], ?_, body, rfl, hline, helement, fun request rid hrequest => ?_⟩
        · rw [serveLine, hparse, hlast, hafter]
          dsimp only
          rw [if_pos hkind, hwrite]
          rfl
        · cases hparse.symm.trans hrequest
    · have hunread : ¬ Readable P.toInterpreter (rstripEnd line.1) := fun h => hkind (hreadable.mp h e hparse)
      obtain ⟨raised, hraised⟩ := serveLine_unreadable (D := D) (E := E) (s := s) hunread
      refine iff_of_false (fun h => hunread h.readable) ?_
      rintro ⟨text, hserve, _⟩
      cases hraised.symm.trans hserve
  | ok request =>
    have hlast : shutsDown P line = isShutdown request := by rw [shutsDown, hparse]
    have hafter : stateAfter P D s line = (handle P D s line.2 request).2 := by rw [stateAfter, hparse]
    have hread : Readable P.toInterpreter (rstripEnd line.1) := hreadable.mpr fun e he => by cases hparse.symm.trans he
    have hmeets : LineMeets P D E s line ↔
        ∀ statement, Attests P D s request statement → statement.Finite ∧ statement.Nests (E.levels - 2) := by
      refine ⟨fun h => h.statement request hparse, fun h => ⟨hread, fun found hfound => ?_⟩⟩
      cases hparse.symm.trans hfound
      exact h
    have hserve : serveLine P D E s line = (do
        let text ← (handle P D s line.2 request).1.write E
        .ok (text, isShutdown request, (handle P D s line.2 request).2)) := by
      rw [serveLine, hparse]
    rw [hmeets, ← @answer_iff P D E s line.2 request, hserve, hlast, hafter]
    constructor
    · rintro ⟨body, hwrite, helement⟩
      obtain ⟨_, heq, hline⟩ := write_line hwrite
      obtain rfl := List.append_cancel_right heq
      refine ⟨body ++ [0x0A], ?_, body, rfl, hline, helement, fun found rid hfound hid => ?_⟩
      · rw [hwrite]
        rfl
      · cases hparse.symm.trans hfound
        have hnamed : (handle P D s line.2 request).1.id = rid := by
          rw [handle_id, requestId, hid]
        exact hnamed ▸ write_id hwrite
    · rintro ⟨text, hserved, body, rfl, _, helement, _⟩
      obtain ⟨_, hwrite, hsame⟩ := bind_eq_ok.mp hserved
      cases hsame
      exact ⟨body, hwrite, helement⟩

/-! ### The whole stream -/

theorem servesAll_blank {s : AdapterState} {line : Line} (h : isBlank line.1 = true) (rest : List Line) :
    ServesAll P D E s (line :: rest) ↔ ServesAll P D E s rest := by
  have hdue : due P (line :: rest) = due P rest := by rw [due, if_pos h]
  have hserve : serve P D E s (line :: rest) = serve P D E s rest := by rw [serve, if_pos h]
  constructor
  · rintro ⟨hended, hanswered⟩
    rw [hserve] at hended hanswered
    rw [hdue] at hanswered
    exact ⟨hended, hanswered⟩
  · rintro ⟨hended, hanswered⟩
    rw [← hserve] at hended hanswered
    rw [← hdue] at hanswered
    exact ⟨hended, hanswered⟩

theorem not_servesAll {s : AdapterState} {line : Line} {e : PyErr} (hblank : isBlank line.1 = false)
    (hline : serveLine P D E s line = .error e) (rest : List Line) : ¬ ServesAll P D E s (line :: rest) := by
  intro h
  have hended := h.ended
  rw [serve, hblank, if_neg Bool.false_ne_true, hline] at hended
  cases hended

theorem servesAll_last {s : AdapterState} {line : Line} {text : Text} (hblank : isBlank line.1 = false)
    (hlast : shutsDown P line = true) (hline : serveLine P D E s line = .ok (text, true, stateAfter P D s line))
    (rest : List Line) : ServesAll P D E s (line :: rest) ↔ LineAnswered P line text := by
  have hdue : due P (line :: rest) = [line] := by rw [due, hblank, if_neg Bool.false_ne_true, if_pos hlast]
  have hserve : serve P D E s (line :: rest) = ⟨[text], .ok 0⟩ := by
    rw [serve, hblank, if_neg Bool.false_ne_true, hline]
  constructor
  · intro h
    have hanswered := h.answered
    rw [hserve, hdue] at hanswered
    exact (List.forall₂_cons.mp hanswered).1
  · intro h
    refine ⟨?_, ?_⟩
    · rw [hserve]
    · rw [hserve, hdue]
      exact .cons h .nil

theorem servesAll_next {s : AdapterState} {line : Line} {text : Text} (hblank : isBlank line.1 = false)
    (hlast : shutsDown P line = false) (hline : serveLine P D E s line = .ok (text, false, stateAfter P D s line))
    (rest : List Line) :
    ServesAll P D E s (line :: rest) ↔ LineAnswered P line text ∧ ServesAll P D E (stateAfter P D s line) rest := by
  have hdue : due P (line :: rest) = line :: due P rest := by
    rw [due, hblank, if_neg Bool.false_ne_true, hlast, if_neg Bool.false_ne_true]
  have hserve : serve P D E s (line :: rest) = (serve P D E (stateAfter P D s line) rest).after text := by
    rw [serve, hblank, if_neg Bool.false_ne_true, hline]
  constructor
  · intro h
    have hended := h.ended
    have hanswered := h.answered
    rw [hserve] at hended hanswered
    rw [hdue] at hanswered
    obtain ⟨hfirst, hothers⟩ := List.forall₂_cons.mp hanswered
    exact ⟨hfirst, hended, hothers⟩
  · rintro ⟨hfirst, hended, hothers⟩
    refine ⟨?_, ?_⟩
    · rw [hserve]
      exact hended
    · rw [hserve, hdue]
      exact .cons hfirst hothers

/-- A stream is served to its end exactly when each line that is due an answer can be read
and asks for no statement that JSON has no line for. -/
theorem servesAll_iff (s : AdapterState) (lines : List Line) : ServesAll P D E s lines ↔ Meets P D E s lines := by
  induction lines generalizing s with
  | nil => exact iff_of_true ⟨rfl, .nil⟩ trivial
  | cons line rest ih =>
    rw [Meets]
    cases hblank : isBlank line.1 with
    | true => rw [if_pos rfl, ← ih s, servesAll_blank hblank]
    | false =>
      rw [if_neg Bool.false_ne_true, serveLine_answers]
      cases hserve : serveLine P D E s line with
      | error e =>
        refine iff_of_false (not_servesAll hblank hserve rest) fun h => ?_
        obtain ⟨⟨_, hfound, _⟩, _⟩ := h
        cases hfound
      | ok served =>
        obtain ⟨text, last, s'⟩ := served
        obtain ⟨rfl, rfl⟩ := serveLine_ok hserve
        have hanswer : (∃ found, (.ok (text, shutsDown P line, stateAfter P D s line) : PyM _) =
            .ok (found, shutsDown P line, stateAfter P D s line) ∧ LineAnswered P line found) ↔ LineAnswered P line text := by
          simp
        rw [hanswer]
        cases hlast : shutsDown P line with
        | true =>
          rw [hlast] at hserve
          rw [servesAll_last hblank hlast hserve]
          exact (and_iff_left nofun).symm
        | false =>
          rw [hlast] at hserve
          rw [servesAll_next hblank hlast hserve, forall_prop_of_true rfl, ih]

/-! ### A line of digits -/

/-- A line of ones, more of them than an integer is read from, cannot be read. -/
theorem not_readable_ones (I : Interpreter) {count : Nat} (h : maxIntDigits < count) :
    ¬ Readable I (List.replicate count 0x31) := by
  obtain ⟨more, rfl⟩ := Nat.exists_eq_add_of_lt (Nat.zero_lt_of_lt h)
  rw [Nat.zero_add] at h ⊢
  have hdecode (n : Nat) : utf8Decode? (List.replicate n 0x31) = some (List.replicate n 0x31) := by
    induction n with
    | zero => rfl
    | succ n ih =>
      rw [List.replicate_succ, utf8Decode?.eq_def]
      dsimp only
      rw [if_pos (by decide), ih]
      rfl
  have hdigits : ∀ c ∈ List.replicate (more + 1) (0x31 : CodePoint), isDigit c = true := by
    intro c hc
    rw [List.eq_of_mem_replicate hc]
    decide
  have hpart : integerPart (List.replicate (more + 1) 0x31) = (List.replicate (more + 1) 0x31, []) := by
    rw [integerPart.eq_def, List.replicate_succ]
    dsimp only
    rw [if_neg (by decide), ← List.replicate_succ, List.takeWhile_eq_self_iff.mpr hdigits,
      List.dropWhile_eq_nil_iff.mpr hdigits]
  have hspace : skipSpace (List.replicate (more + 1) 0x31) = List.replicate (more + 1) 0x31 := by
    rw [List.replicate_succ]
    rfl
  have hbom : (List.replicate (more + 1) (0x31 : CodePoint)).head? ≠ some 0xFEFF := by
    rw [List.replicate_succ, List.head?_cons]
    decide
  intro hreadable
  refine (hreadable _ (hdecode _) hbom _ .refl).2 ⟨false, List.replicate (more + 1) 0x31, ?_, ?_, ?_⟩
  · rw [hspace, List.replicate_succ]
    rfl
  · rw [IsInteger, fractionOf, hpart]
    exact ⟨rfl, rfl⟩
  · rw [hpart, List.length_replicate]
    exact h

/-- A line of 4301 digits ends the process. -/
theorem digits_end_service :
    ¬ ServesAll (Recording.mk [] []).platform installed ⟨1000, by decide⟩ (AdapterState.start (some []))
      [(List.replicate 4301 0x31, [])] := by
  have hstrip : rstripEnd (List.replicate 4301 0x31) = List.replicate 4301 0x31 := by
    rw [rstripEnd, List.reverse_replicate, List.replicate_succ, List.dropWhile_cons_of_neg (by decide), ← List.replicate_succ,
      List.reverse_replicate]
  have hblank : isBlank (List.replicate 4301 0x31) = false := by
    rw [isBlank, List.replicate_succ]
    rfl
  obtain ⟨e, hline⟩ := @serveLine_unreadable (Recording.mk [] []).platform installed ⟨1000, by decide⟩
    (AdapterState.start (some [])) (List.replicate 4301 0x31, []) (by rw [hstrip]; exact not_readable_ones _ (by decide))
  exact not_servesAll hblank hline []

end AitpVerifier
