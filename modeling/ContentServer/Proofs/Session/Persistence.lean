import ContentServer.Proofs.Http.Options
import ContentServer.Proofs.Session.Stream

/-!
# Persistence of connections

Whether a connection stays open is decided in one place and shown in two.  The head of the request
decides it (`Head.Persistent`).  The head of the response announces it in its one `Connection`
field, and after the response the session reads on or closes.

`persistence_agrees` says that these three are always the same, whatever is answered: a rendered
document, a file, or one of the errors.  It also says that the verdict does not depend on how the
options of the request are written.  A session may have all of a request at once or get it bit by
bit.  `settle_buffered` is about the first, and each request is in the end answered by the same
step.
-/

namespace ContentServer

/-! ## What a head announces -/

namespace Reply

/-- Whether a line is a `Connection` field. -/
def isConnectionLine (line : List Char) : Bool :=
  (Field.ofLine? line).any fun field => FieldName.ofText field.name = .connection

/-- The lines of a head that are `Connection` fields. -/
def connectionLines (head : Bytes) : List (List Char) :=
  (linesOf head).tail.filter isConnectionLine

theorem isConnectionLine_line {f : HeadField} (h : f.IsField) :
    isConnectionLine f.line = decide (FieldName.ofText f.name = .connection) := by
  have hread : Field.ofLine? f.line = some ⟨f.name, f.value⟩ :=
    Field.ofLine?_eq_some_iff.mpr ⟨f, rfl, h, rfl⟩
  rw [isConnectionLine, hread, Option.any_some]

end Reply

namespace Response

/-- The line that announces whether the connection stays open. -/
def connectionLine (persistent : Prop) [Decidable persistent] : List Char :=
  if persistent then "Connection: keep-alive".toList else "Connection: close".toList

theorem filter_fields (r : Response) :
    r.fields.filter (fun f => FieldName.ofText f.name = .connection)
      = [field "Connection" (if r.keepAlive then "keep-alive" else "close")] := by
  cases hcoding : r.coding with
  | none =>
    rw [fields, hcoding]
    rfl
  | some c =>
    rw [fields, hcoding]
    rfl

/-- A head has one `Connection` field. -/
theorem connectionLines_head {r : Response} (htype : '\r' ∉ r.contentType.toList) :
    Reply.connectionLines (Bytes.ofText r.head) = [connectionLine r.keepAlive] := by
  have hrow : (r.fields.map HeadField.line).filter Reply.isConnectionLine
      = [(field "Connection" (if r.keepAlive then "keep-alive" else "close")).line] := by
    rw [List.filter_map, ← List.map_singleton, ← filter_fields]
    exact congrArg (List.map HeadField.line)
      (List.filter_congr fun f hf => Reply.isConnectionLine_line (r.isField_fields f hf))
  have hempty : [[], []].filter Reply.isConnectionLine = [] := rfl
  rw [Reply.connectionLines, linesOf_head htype, List.tail_cons, List.filter_append, hrow, hempty,
    List.append_nil, connectionLine]
  cases r.keepAlive with
  | true => rfl
  | false => rfl

end Response

namespace Session

variable {limits : Limits} {s : Session} {request : Request}

/-! ## After an answer -/

/-- The session that has sent an answer, and reads on or closes. -/
def turn (persistent : Prop) [Decidable persistent] (limits : Limits) (now : Time)
    (response : Response) (s : Session) : Session :=
  if persistent then (s.sent response).await limits now
  else (s.sent response).finish .answered

/-- A session that reads on reads a head, as long as the clock can show the deadline. -/
theorem phase_turn {persistent : Prop} [Decidable persistent] {now deadline : Time}
    (hlater : Clock.later? now limits.readTimeout = some deadline) (response : Response)
    (s : Session) : (s.turn persistent limits now response).phase = .head ↔ persistent := by
  rw [turn]
  split
  · next hpersistent =>
    rw [await, hlater]
    exact iff_of_true rfl hpersistent
  · next hclose =>
    refine iff_of_false ?_ hclose
    intro hphase
    cases hphase

/-- What a session was doing does not matter once it has sent an answer. -/
theorem turn_of_phase (persistent : Prop) [Decidable persistent] (limits : Limits) (now : Time)
    (response : Response) (phase : Phase) (s : Session) :
    ({ s with phase } : Session).turn persistent limits now response
      = s.turn persistent limits now response := by
  rw [turn, turn]
  split
  · rw [await, await]
    split <;> rfl
  · rfl

/-- An answer of the site turns the session as the request asks. -/
theorem reply_answer (site : Site) (limits : Limits) (now : Moment) (request : Request)
    (s : Session) (state : Site.State) :
    s.reply limits now (site.answerAt s.served now request state).1
      = s.turn request.keepAlive limits now.clock (site.answerAt s.served now request state).1 := by
  have hanswer := site.answerAt_answer s.served now request state
  rw [reply_of_written hanswer.written, hanswer.keepAlive, turn]

/-! ## A request that has arrived in full -/

/-- A head is taken off the buffer with the line breaks in front. -/
theorem settle_head {n : Nat} (hphase : s.phase = .head)
    (hparse : Request.parse limits.maxBody s.buffer = .ok (some (request, n))) (site : Site)
    (now : Moment) (state : Site.State) :
    settle site limits now s state
      = settle site limits now
          { s with phase := .body request request.contentLength, buffer := s.buffer.drop n }
          state := by
  have hblank : Request.blankLength s.buffer ≤ n := by
    obtain ⟨i, text, -, -, -, -, hn⟩ := Request.parse_eq_some_iff.mp hparse
    rw [hn]
    exact Nat.le_add_right _ _
  let bare : Session := { s with buffer := s.buffer.drop (Request.blankLength s.buffer) }
  have hbare : settle site limits now s state = settle site limits now bare state := by
    rcases Nat.eq_zero_or_pos (Request.blankLength s.buffer) with hnone | hsome
    · simp only [bare, hnone, List.drop_zero]
    · exact settle_of_step (.blank hphase hsome)
  have haccept : Step site limits now bare state
      { s with phase := .body request request.contentLength,
               buffer := bare.buffer.drop (n - Request.blankLength s.buffer) } state :=
    .accept hphase (Request.blankLength_drop s.buffer) (Request.parse_drop_blank hparse)
  rw [List.drop_drop, Nat.add_sub_cancel' hblank] at haccept
  rw [hbare, settle_of_step haccept]

/-- A body is dropped. -/
theorem settle_body {missing : Nat} (hphase : s.phase = .body request missing)
    (hbody : missing ≤ s.buffer.length) (site : Site) (limits : Limits) (now : Moment)
    (state : Site.State) :
    settle site limits now s state
      = settle site limits now
          { s with phase := .body request 0, buffer := s.buffer.drop missing } state := by
  rcases Nat.eq_zero_or_pos missing with hmissing | hmissing
  · rw [hmissing, List.drop_zero, ← hmissing, ← hphase]
  · have hbuffer : s.buffer ≠ [] := List.ne_nil_of_length_pos (Nat.lt_of_lt_of_le hmissing hbody)
    have hstep : Step site limits now s state
        { s with phase := .body request (missing - s.buffer.length),
                 buffer := s.buffer.drop missing } state :=
      .discard hphase hmissing hbuffer
    rw [Nat.sub_eq_zero_of_le hbody] at hstep
    exact settle_of_step hstep

/-- A session that has all of a request answers it, and then it settles with what is left. -/
theorem settle_buffered {n : Nat} (hphase : s.phase = .head)
    (hparse : Request.parse limits.maxBody s.buffer = .ok (some (request, n)))
    (hbody : n + request.contentLength ≤ s.buffer.length) (site : Site) (now : Moment)
    (state : Site.State) :
    settle site limits now s state
      = settle site limits now
          (({ s with buffer := s.buffer.drop (n + request.contentLength) } : Session).turn
            request.keepAlive limits now.clock (site.answerAt s.served now request state).1)
          (site.answerAt s.served now request state).2 := by
  have hfits : request.contentLength ≤ (s.buffer.drop n).length := by
    rw [List.length_drop]
    omega
  let rest : Session := { s with buffer := s.buffer.drop (n + request.contentLength) }
  have hready : settle site limits now s state
      = settle site limits now { rest with phase := .body request 0 } state := by
    rw [settle_head hphase hparse, settle_body rfl hfits, List.drop_drop]
  rw [hready, settle_of_step (.answer rfl), reply_answer, turn_of_phase]

/-! ## One verdict -/

/-- The options of a request, its response and the session behind it agree.  For every request that
is accepted, the connection persists iff its head asks for that, in whatever way the options are
written.  Then the head of the response has the line that says so and no other `Connection` field,
and with the response the session reads on.  Otherwise it has the line that says the contrary, and
the session ends. -/
theorem persistence_agrees {maxBody : Nat} {buffer : Bytes} {r : Request} {n : Nat}
    (h : Request.parse maxBody buffer = .ok (some (r, n))) :
    ∃ head : Head,
      (head.bytes <+: buffer.drop (Request.blankLength buffer) ∧ head.Legal maxBody ∧
        r = head.request) ∧
      (∀ (site : Site) (limits : Limits) (now : Moment) (s : Session) (state : Site.State),
        let response := (site.answerAt s.served now r state).1
        let after := (site.answerAt s.served now r state).2
        Reply.connectionLines (Bytes.ofText response.head)
            = [Response.connectionLine head.Persistent] ∧
          (s.phase = .body r 0 →
            step site limits now s state
              = some (s.turn head.Persistent limits now.clock response, after)) ∧
          (s.phase = .head → s.buffer = buffer → limits.maxBody = maxBody →
            n + r.contentLength ≤ buffer.length →
            settle site limits now s state
              = settle site limits now
                  (({ s with buffer := buffer.drop (n + r.contentLength) } : Session).turn
                    head.Persistent limits now.clock response) after) ∧
          ∀ deadline, Clock.later? now.clock limits.readTimeout = some deadline →
            ((s.turn head.Persistent limits now.clock response).phase = .head ↔
              head.Persistent)) ∧
      ∀ other : Head, other.version = head.version → Rearranged head.fields other.fields →
        (other.Persistent ↔ head.Persistent) ∧ other.request.keepAlive = r.keepAlive := by
  obtain ⟨head, hbytes, hlegal, rfl⟩ := Request.exists_head h
  have hverdict := head.keepAlive_request
  have hturn : ∀ (limits : Limits) (now : Time) (response : Response) (s : Session),
      s.turn (head.request.keepAlive = true) limits now response
        = s.turn head.Persistent limits now response := by
    intro limits now response s
    simp only [turn, hverdict]
  refine ⟨head, ⟨hbytes, hlegal, rfl⟩, ?_, ?_⟩
  · intro site limits now s state response after
    have hanswer := site.answerAt_answer s.served now head.request state
    refine ⟨?_, ?_, ?_, ?_⟩
    · rw [Response.connectionLines_head hanswer.framed.contentType, hanswer.keepAlive]
      simp only [Response.connectionLine, hverdict]
    · intro hphase
      rw [(Step.answer hphase).step, reply_answer, hturn]
    · rintro hphase rfl rfl hbody
      rw [settle_buffered hphase h hbody site now state, hturn]
    · intro deadline hlater
      exact phase_turn hlater response s
  · intro other hversion hfields
    have hsame := Head.persistent_congr hversion hfields
    refine ⟨hsame, ?_⟩
    rw [Bool.eq_iff_iff, other.keepAlive_request, hverdict, hsame]

/-- A client of the old version that asks to keep the connection, between other options. -/
theorem persistence_for_an_old_client :
    let site := Site.ofLibrary "/f" ⟨"/content"⟩ {} (fun _ => Codec.failing) ⟨fun _ => none, []⟩
    let limits : Limits := { readTimeout := 5, maxBody := 20 }
    let now : Moment := ⟨3, 0⟩
    let initial : Site.State := { cache := ⟨4, []⟩ }
    let buffer := Bytes.ofText
      "GET /a HTTP/1.0\r\ncONNECTION: Foo ,, Keep-Alive\r\nConnection: bar\r\n\r\n"
    let r : Request := { method := .get, target := "/a", version := .v10,
                         connection := ["foo", "keep-alive", "bar"] }
    let s : Session := { phase := .body r 0 }
    let response := (site.answerAt s.served now r initial).1
    Request.parse 20 buffer = .ok (some (r, 67)) ∧
      Reply.connectionLines (Bytes.ofText response.head) = ["Connection: keep-alive".toList] ∧
      ∃ t, step site limits now s initial = some (t, (site.answerAt s.served now r initial).2) ∧
        t.phase = .head := by
  have hparse : Request.parse 20 (Bytes.ofText
        "GET /a HTTP/1.0\r\ncONNECTION: Foo ,, Keep-Alive\r\nConnection: bar\r\n\r\n")
      = .ok (some ({ method := .get, target := "/a", version := .v10,
                     connection := ["foo", "keep-alive", "bar"] }, 67)) := rfl
  intro site limits now initial buffer r s response
  obtain ⟨head, ⟨-, -, hr⟩, hagrees, -⟩ := persistence_agrees hparse
  have hpersistent : head.Persistent := by
    rw [← head.keepAlive_request, ← hr]
    rfl
  obtain ⟨hline, hstep, -, hphase⟩ := hagrees site limits now s initial
  refine ⟨hparse, ?_, _, hstep rfl, (hphase 8 rfl).mpr hpersistent⟩
  rw [hline, Response.connectionLine, if_pos hpersistent]

end Session

end ContentServer
