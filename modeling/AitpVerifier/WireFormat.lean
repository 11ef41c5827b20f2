import AitpVerifier.DumpsReading
import AitpVerifier.Respelled
import AitpVerifier.ServedStream

/-!
# The two strict parsers

Artifacts are read by `jcs.loads`, request lines by `parse_request`. Both take the texts of
the grammar and no others, up to the same limits, and both return what the text means. Read
by either, a line the adapter has written gives back the response it was written from.
-/
namespace AitpVerifier

open PyText Checked JsonGrammar Json

variable {I : Interpreter}

/-! ### Request lines -/

theorem requestHooks_admit : Jcs.Admit (requestHooks I) := by
  intro pairs hpairs
  have hgo (out rest : Members) (h : (Members.names (out ++ rest)).Nodup) :
      noDuplicateKeys.go I out rest = .ok (.dict (out ++ rest)) := by
    induction rest generalizing out with
    | nil => simp [noDuplicateKeys.go]
    | cons m rest ih =>
      obtain ⟨key, value⟩ := m
      have hnew : ¬ out.has key = true := by
        intro hhas
        rw [Members.names, List.map_append, List.nodup_append] at h
        exact h.2.2 key (Members.mem_names_iff.mpr hhas) key List.mem_cons_self rfl
      rw [noDuplicateKeys.go, if_neg hnew, ih _ (by simpa using h)]
      simp
  exact hgo [] pairs hpairs

/-- A request line is read as the object it means, within the limits of the strict parser of artifacts. -/
theorem parseRequest_eq_ok_iff {line : Bytes} {members : Members} :
    parseRequest I line = .ok members ↔ Jcs.loads I line = .ok (.dict members) := by
  rw [parseRequest, Jcs.loads_eq_ok_iff]
  cases utf8Decode? line with
  | none => simp
  | some document =>
    have hread (v : JsonValue) := @Json.loads_eq_ok_iff _ (requestHooks I) I document v requestHooks_strict requestHooks_admit
    simp only [bind_eq_ok, rescue_eq_ok, hread, Option.some.injEq]
    constructor
    · rintro ⟨v, hv, hobject⟩
      cases v with
      | dict found =>
        cases hobject
        exact ⟨document, rfl, hv⟩
      | null | bool | int | float | str | list => cases hobject
    · rintro ⟨_, rfl, hv⟩
      exact ⟨_, hv, rfl⟩

/-- The texts of the grammar are those that mean something, and what they mean is what both parsers return, when no object
repeats a name, no integer is too long and no nesting too deep. -/
theorem strict_parsers_exact (octets : Bytes) (v : JsonValue) (members : Members) :
    (Jcs.loads I octets = .ok v ↔ ∃ document, utf8Decode? octets = some document ∧ document.head? ≠ some 0xFEFF ∧
      Means document v ∧ v.Distinct ∧ v.Short ∧ v.Nests I.parseDepth) ∧
    (parseRequest I octets = .ok members ↔ Jcs.loads I octets = .ok (.dict members)) ∧
    ∀ document, Element document ↔ ∃ value, Means document value :=
  ⟨Jcs.loads_eq_ok_iff, parseRequest_eq_ok_iff, fun _ => ⟨Element.means, fun ⟨_, h⟩ => h.element⟩⟩

/-! ### Doubles -/

theorem number_read {text : Text} {v : JsonValue} (hmeans : NumberMeans text v) (hshort : v.Short) :
    ∃ octets, utf8? text = some octets ∧ Jcs.loads I octets = .ok v := by
  have hascii := number_ascii hmeans.number
  obtain ⟨octets, hoctets, hdecode⟩ := hascii.utf8
  have hdistinct : v.Distinct := by
    cases hmeans
    · exact .int
    · exact .float
  exact ⟨octets, hoctets, Jcs.loads_eq_ok_iff.mpr ⟨text, hdecode, hascii.no_mark, .number hmeans, hdistinct, hshort, hmeans.nests⟩⟩

/-- A finite double is read back from its `repr`, and from its canonical text as a number of its value, whose canonical text no
number of another value has. The zeros alone share a value. -/
theorem double_texts_exact {f : Binary64} (h : f.isFinite = true) :
    (∃ octets, utf8? f.repr = some octets ∧ Jcs.loads I octets = .ok (.float f)) ∧
    (∃ text octets v g, Jcs.formatFloat f = .ok text ∧ utf8? text = some octets ∧ Jcs.loads I octets = .ok v ∧
      v.double? = some g ∧ SameNumber f g) ∧
    ∀ g : Binary64, g.isFinite = true → (Jcs.formatFloat f = Jcs.formatFloat g ↔ SameNumber f g) ∧
      (SameNumber f g ↔ f = g ∨ f.isZero = true ∧ g.isZero = true) := by
  have htext {f : Binary64} (h : f.isFinite = true) : ∃ text, Jcs.formatFloat f = .ok text :=
    isOk_iff.mp (Jcs.formatFloat_isOk.trans h)
  obtain ⟨text, hf⟩ := htext h
  obtain ⟨v, hmeans, hshort, k, hk, hsame⟩ := formatFloat_means hf
  refine ⟨?_, ?_, fun g hg => ⟨⟨fun heq => ?_, Jcs.formatFloat_same⟩, Jcs.sameNumber_iff h hg⟩⟩
  · have hrepr := dumpsFloat_means h
    cases f with
    | nan | inf => cases h
    | finite negative mantissa scale hc => exact number_read hrepr .float
  · obtain ⟨octets, hoctets, hread⟩ := @number_read I _ _ hmeans hshort
    exact ⟨text, octets, v, k, hf, hoctets, hread, hk, hsame⟩
  · -- both texts mean one number, which has the value of each double
    obtain ⟨w, hmeans', hshort', k', hk', hsame'⟩ := formatFloat_means (heq ▸ hf)
    obtain rfl := Means.unique (.number hmeans) (.number hmeans') hshort hshort'
    obtain rfl := Option.some.inj (hk.symm.trans hk')
    exact hsame.trans hsame'.symm

/-- The two zeros have one canonical text. -/
theorem double_texts_exact_zero :
    Jcs.formatFloat (.finite true 0 0 (by decide)) = Jcs.formatFloat (.finite false 0 0 (by decide)) := by
  have hsame : SameNumber (.finite true 0 0 (by decide)) (.finite false 0 0 (by decide)) := ⟨rfl, rfl, by decide⟩
  have hexact := @double_texts_exact (Recording.platform ⟨[], []⟩).toInterpreter (.finite true 0 0 (by decide)) rfl
  exact (hexact.2.2 _ rfl).1.mpr hsame

/-! ### Response lines -/

section

variable {P : Platform} {D : Deployment} {E : Encoder}

variable (P D) in
/-- The answer to a line that can be read, in the state it comes in. -/
def answerTo (s : AdapterState) (line : Line) : Response :=
  match parseLine P line with
  | .ok request => (handle P D s line.2 request).1
  | .error e => malformedRequest (txt "unknown") e.text

variable (P D) in
/-- Each line an answer is due to, and its answer in the state the lines before it leave. -/
def answers (s : AdapterState) : List Line → List (Line × Response)
  | [] => []
  | line :: rest =>
    if isBlank line.1 then answers s rest
    else if shutsDown P line then [(line, answerTo P D s line)]
    else (line, answerTo P D s line) :: answers (stateAfter P D s line) rest

/-- One line of ASCII, from which a strict parser reads the answer with its surrogate pairs joined, exactly when every number
of it is finite, no object then repeats a name and the parser has room; otherwise it reads nothing. -/
def ReadBack (response : Response) (written : Text) : Prop :=
  ∃ body, written = body ++ [0x0A] ∧ 0x0A ∉ body ∧ Ascii body ∧
    ∀ (I : Interpreter) (v : JsonValue), Json.loads I (requestHooks I) body = .ok v ↔
      v = response.value.joined ∧ response.value.Finite ∧ response.value.joined.Distinct ∧ response.value.Nests I.parseDepth

theorem answers_lines (s : AdapterState) (lines : List Line) : (answers P D s lines).map Prod.fst = due P lines := by
  induction lines generalizing s with
  | nil => rfl
  | cons line rest ih =>
    rw [answers, due]
    split
    · exact ih s
    · split
      · rfl
      · rw [List.map_cons, ih]

theorem write_read_back {response : Response} {text : Text} (h : response.write E = .ok text) : ReadBack response text := by
  obtain ⟨body, hdumps, rfl⟩ := write_eq_ok.mp h
  obtain ⟨_, heq, hline⟩ := write_line h
  obtain rfl := List.append_cancel_right heq
  exact ⟨body, rfl, hline, dumps_ascii hdumps, fun I v => dumps_loads_iff requestHooks_strict requestHooks_admit hdumps⟩

theorem serveLine_read_back {s s' : AdapterState} {line : Line} {text : Text} {last : Bool}
    (h : serveLine P D E s line = .ok (text, last, s')) : ReadBack (answerTo P D s line) text := by
  rw [serveLine] at h
  rw [answerTo]
  cases hparse : parseLine P line with
  | error e =>
    rw [hparse] at h
    dsimp only at h
    split at h
    · obtain ⟨_, hwrite, hsame⟩ := bind_eq_ok.mp h
      cases hsame
      exact write_read_back hwrite
    · cases h
  | ok request =>
    rw [hparse] at h
    obtain ⟨_, hwrite, hsame⟩ := bind_eq_ok.mp h
    cases hsame
    exact write_read_back hwrite

/-- In any run there is an answer to each line that is due one, in the state the run has come to, and the lines written are the
first of these answers, in order, each read back as its answer. -/
theorem served_read_back (s : AdapterState) (lines : List Line) :
    (answers P D s lines).map Prod.fst = due P lines ∧ ∃ given, given <+: answers P D s lines ∧
      List.Forall₂ (fun answer => ReadBack answer.2) given (serve P D E s lines).written := by
  refine ⟨answers_lines s lines, ?_⟩
  induction lines generalizing s with
  | nil => exact ⟨[], List.nil_prefix, .nil⟩
  | cons line rest ih =>
    rw [serve, answers]
    cases isBlank line.1 with
    | true => simpa using ih s
    | false =>
      rw [if_neg Bool.false_ne_true, if_neg Bool.false_ne_true]
      cases hserve : serveLine P D E s line with
      | error e => exact ⟨[], List.nil_prefix, .nil⟩
      | ok served =>
        obtain ⟨text, last, s'⟩ := served
        have hread := serveLine_read_back hserve
        obtain ⟨rfl, rfl⟩ := serveLine_ok hserve
        cases shutsDown P line with
        | true => exact ⟨_, List.prefix_refl _, .cons hread .nil⟩
        | false =>
          obtain ⟨given, hfirst, hgiven⟩ := ih (stateAfter P D s line)
          exact ⟨_ :: given, List.cons_prefix_cons.mpr ⟨rfl, hfirst⟩, .cons hread hgiven⟩

/-- A request to take the handshake message `m`. -/
def handshakeLine : Line :=
  (asciiOctets (txt "\x7b\"id\":\"a\",\"op\":\"process_handshake_message\",\"params\":\x7b\"message_id\":\"m\"\x7d\x7d"), [])

def firstAnswer : Response := .ok (txt "a") []

def secondAnswer : Response := .err (txt "a") "REPLAY_DETECTED" (txt "message_id m already seen")

theorem firstAnswer_reads : firstAnswer.value.joined = firstAnswer.value ∧ firstAnswer.value.Finite ∧ firstAnswer.value.Distinct ∧
    firstAnswer.value.Nests 2 := by
  have hempty : (JsonValue.dict []).Distinct := .dict .nil nofun
  refine ⟨?_, .dict ?_, .dict (by decide) ?_, ?_⟩
  · simp only [firstAnswer, Response.value, JsonValue.joined_dict, List.map_cons, JsonValue.joined_str, JsonValue.joined_bool]
    decide
  · simp [JsonValue.Finite.str, JsonValue.Finite.bool, JsonValue.finite_dict]
  · simp [JsonValue.Distinct.str, JsonValue.Distinct.bool, hempty]
  · simp [firstAnswer, Response.value, JsonValue.Nests]

theorem secondAnswer_reads : secondAnswer.value.joined = secondAnswer.value ∧ secondAnswer.value.Finite ∧
    secondAnswer.value.Distinct ∧ secondAnswer.value.Nests 2 := by
  refine ⟨?_, .dict ?_, .dict (by decide) ?_, ?_⟩
  · simp only [secondAnswer, Response.value, JsonValue.joined_dict, List.map_cons, JsonValue.joined_str, JsonValue.joined_bool]
    decide
  · simp [JsonValue.Finite.str, JsonValue.Finite.bool]
  · simp [JsonValue.Distinct.str, JsonValue.Distinct.bool]
  · simp [secondAnswer, Response.value, JsonValue.Nests]

/-- A message sent twice is taken and then refused as a replay, and both answers are read back. -/
theorem served_read_back_replayed : ∃ first second,
    (serve (Recording.mk [] []).platform installed ⟨1000, by decide⟩ (AdapterState.start (some []))
        [handshakeLine, handshakeLine]).written = [first ++ [0x0A], second ++ [0x0A]] ∧
      ∀ I : Interpreter, 2 ≤ I.parseDepth →
        Json.loads I (requestHooks I) first = .ok firstAnswer.value ∧ Json.loads I (requestHooks I) second = .ok secondAnswer.value := by
  obtain ⟨_, given, hfirst, hgiven⟩ := @served_read_back (Recording.mk [] []).platform installed ⟨1000, by decide⟩
    (AdapterState.start (some [])) [handshakeLine, handshakeLine]
  have hanswers : answers (Recording.mk [] []).platform installed (AdapterState.start (some [])) [handshakeLine, handshakeLine] =
      [(handshakeLine, firstAnswer), (handshakeLine, secondAnswer)] := by
    decide +kernel
  have hlength : (serve (Recording.mk [] []).platform installed ⟨1000, by decide⟩ (AdapterState.start (some []))
      [handshakeLine, handshakeLine]).written.length = 2 := by
    decide +kernel
  rw [hanswers] at hfirst
  obtain rfl := hfirst.eq_of_length (hgiven.length_eq.trans hlength)
  rw [List.forall₂_cons_left_iff] at hgiven
  obtain ⟨_, _, ⟨first, rfl, _, _, hfirstAnswer⟩, hgiven, hwritten⟩ := hgiven
  rw [List.forall₂_cons_left_iff] at hgiven
  obtain ⟨_, _, ⟨second, rfl, _, _, hsecondAnswer⟩, hgiven, rfl⟩ := hgiven
  obtain rfl := List.forall₂_nil_left_iff.mp hgiven
  refine ⟨first, second, hwritten, fun I hroom => ⟨(hfirstAnswer I _).mpr ?_, (hsecondAnswer I _).mpr ?_⟩⟩
  · obtain ⟨hjoined, hfinite, hdistinct, hnests⟩ := firstAnswer_reads
    exact ⟨hjoined.symm, hfinite, hjoined.symm ▸ hdistinct, hnests.mono hroom⟩
  · obtain ⟨hjoined, hfinite, hdistinct, hnests⟩ := secondAnswer_reads
    exact ⟨hjoined.symm, hfinite, hjoined.symm ▸ hdistinct, hnests.mono hroom⟩

end

end AitpVerifier
