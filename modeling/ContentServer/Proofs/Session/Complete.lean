import ContentServer.Proofs.Session.Messages

/-!
# Complete requests

A session has some complete requests in its buffer.  `Holds` says which, whether the session is
between two requests or in the middle of the first one.  No step loses any of them, also when their
last bytes are still on the way (`Holds.step`).  So they are answered one after the other, up to the
first one that closes the connection (`Holds.answers`).
-/

namespace ContentServer.Session

variable {site : Site} {limits : Limits} {now : Moment} {s t : Session} {state after : Site.State}
variable {request : Request} {requests : List Request} {rest : Bytes}

/-! ## Rows of messages -/

/-- Bytes that are a row of messages with some requests, and a rest behind them. -/
def IsRow (maxBody : Nat) (bytes : Bytes) (requests : List Request) (rest : Bytes) : Prop :=
  ∃ messages : List (Message maxBody), messages.map Message.request = requests ∧
    bytes = messages.flatMap Message.bytes ++ rest

variable {maxBody : Nat} {buffer bytes : Bytes}

theorem IsRow.eq_rest (h : IsRow maxBody bytes [] rest) : bytes = rest := by
  obtain ⟨messages, hrequests, rfl⟩ := h
  rw [List.map_eq_nil_iff.mp hrequests]
  rfl

theorem IsRow.exists_first (h : IsRow maxBody bytes (request :: requests) rest) :
    ∃ (m : Message maxBody) (more : Bytes), m.request = request ∧ bytes = m.bytes ++ more ∧
      IsRow maxBody more requests rest := by
  obtain ⟨messages, hrequests, rfl⟩ := h
  cases messages with
  | nil => cases hrequests
  | cons m messages =>
    obtain ⟨hfirst, hothers⟩ := List.cons.inj hrequests
    refine ⟨m, messages.flatMap Message.bytes ++ rest, hfirst, ?_, messages, hothers, rfl⟩
    rw [List.flatMap_cons, List.append_assoc]

theorem IsRow.cons (m : Message maxBody) {more : Bytes} (h : IsRow maxBody more requests rest) :
    IsRow maxBody (m.bytes ++ more) (m.request :: requests) rest := by
  obtain ⟨messages, rfl, rfl⟩ := h
  refine ⟨m :: messages, rfl, ?_⟩
  rw [List.flatMap_cons, List.append_assoc]

theorem Message.blankLength_core (m : Message maxBody) : Request.blankLength m.core = 0 :=
  Request.blankLength_drop m.head

theorem Message.parse_core_ne_none (m : Message maxBody) :
    Request.parse maxBody m.core ≠ .ok none := by
  rw [m.parse_core]
  intro h
  cases h

theorem Message.parse_core_append (m : Message maxBody) (more : Bytes) :
    Request.parse maxBody (m.core ++ more) = .ok (some (m.request, m.core.length)) := by
  rw [Request.parse_append m.blankLength_core m.parse_core_ne_none, m.parse_core]

theorem Message.blankLength_bytes (m : Message maxBody) (more : Bytes) :
    Request.blankLength (m.bytes ++ more) = m.front.length := by
  have hcore := Request.blankLength_append_of_parse m.blankLength_core m.parse_core_ne_none
  rw [m.bytes_eq, List.append_assoc, List.append_assoc,
    Request.blankLength_append fun b => m.isLineBreak_of_mem_front, hcore, Nat.add_zero]

/-- Where no line breaks come first, the parser finds the first request of a row. -/
theorem IsRow.parse (h : IsRow maxBody bytes (request :: requests) rest)
    (hblank : Request.blankLength bytes = 0) :
    ∃ n, Request.parse maxBody bytes = .ok (some (request, n)) ∧
      request.contentLength ≤ (bytes.drop n).length ∧
      IsRow maxBody ((bytes.drop n).drop request.contentLength) requests rest := by
  obtain ⟨m, more, rfl, rfl, hmore⟩ := h.exists_first
  rw [m.blankLength_bytes, List.length_eq_zero_iff] at hblank
  have hbytes : m.bytes ++ more = m.core ++ (m.body ++ more) := by
    rw [m.bytes_eq, hblank, List.nil_append, List.append_assoc]
  rw [hbytes]
  refine ⟨m.core.length, m.parse_core_append _, ?_, ?_⟩
  · rw [List.drop_left, List.length_append, m.length_body]
    exact Nat.le_add_right _ _
  · rw [List.drop_left, ← m.length_body, List.drop_left]
    exact hmore

/-- What the parser finds is the first request of a row, also while the row is not complete. -/
theorem IsRow.parse_front {data : Bytes}
    (h : IsRow maxBody (buffer ++ data) (request :: requests) rest)
    (hblank : Request.blankLength buffer = 0) (hsay : Request.parse maxBody buffer ≠ .ok none) :
    ∃ n, Request.parse maxBody buffer = .ok (some (request, n)) ∧
      request.contentLength ≤ (buffer.drop n ++ data).length ∧
      IsRow maxBody ((buffer.drop n ++ data).drop request.contentLength) requests rest := by
  obtain ⟨n, hfound, hrest⟩ := h.parse (Request.blankLength_append_of_parse hblank hsay data)
  rw [Request.parse_append hblank hsay] at hfound
  rw [List.drop_append_of_le_length (Request.parse_consumed hfound).2] at hrest
  exact ⟨n, hfound, hrest⟩

/-- The message without some of the line breaks before it. -/
def Message.trim (m : Message maxBody) (k : Nat) : Message maxBody where
  blank := m.front.drop k
  head := m.core
  body := m.body
  request := m.request
  blank_isLineBreak _ h := m.isLineBreak_of_mem_front (List.mem_of_mem_drop h)
  parse_head := m.parse_core
  length_body := m.length_body

theorem Message.bytes_trim (m : Message maxBody) {k : Nat} (hk : k ≤ m.front.length) :
    (m.trim k).bytes = m.bytes.drop k := by
  rw [m.bytes_eq, List.drop_append_of_le_length hk]
  rfl

/-- Line breaks may be dropped as soon as they are there. -/
theorem IsRow.drop_blank {data : Bytes}
    (h : IsRow maxBody (buffer ++ data) (request :: requests) rest) :
    IsRow maxBody (buffer.drop (Request.blankLength buffer) ++ data) (request :: requests)
      rest := by
  have hle := Request.blankLength_le buffer
  have hmono : Request.blankLength buffer ≤ Request.blankLength (buffer ++ data) := by
    rcases Nat.lt_or_eq_of_le hle with hlt | heq
    · rw [Request.blankLength_append_of_lt hlt]
    · rw [Request.blankLength_append_of_eq heq, heq]
      exact Nat.le_add_right _ _
  obtain ⟨m, more, rfl, hbytes, hmore⟩ := h.exists_first
  rw [hbytes, m.blankLength_bytes] at hmono
  have hlong : Request.blankLength buffer ≤ m.bytes.length := by
    rw [m.bytes_eq, List.length_append]
    omega
  rw [← List.drop_append_of_le_length hle, hbytes, List.drop_append_of_le_length hlong,
    ← m.bytes_trim hmono]
  exact hmore.cons (m.trim _)

/-! ## Complete requests -/

/-- The complete requests that a session has, the one that it reads before the others, and the bytes
behind them. -/
def Holds (limits : Limits) (s : Session) (requests : List Request) (rest : Bytes) : Prop :=
  match s.phase with
  | .ended _ => False
  | .body request missing => missing ≤ s.buffer.length ∧
      ∃ others, requests = request :: others ∧
        IsRow limits.maxBody (s.buffer.drop missing) others rest
  | .head => IsRow limits.maxBody s.buffer requests rest

theorem holds_head_iff (hphase : s.phase = .head) :
    s.Holds limits requests rest ↔ IsRow limits.maxBody s.buffer requests rest := by
  rw [Holds, hphase]

theorem holds_body_iff {first : Request} {missing : Nat} (hphase : s.phase = .body first missing) :
    s.Holds limits (request :: requests) rest ↔
      missing ≤ s.buffer.length ∧ first = request ∧
        IsRow limits.maxBody (s.buffer.drop missing) requests rest := by
  rw [Holds, hphase]
  constructor
  · rintro ⟨hmissing, others, heq, hrow⟩
    cases heq
    exact ⟨hmissing, rfl, hrow⟩
  · rintro ⟨hmissing, rfl, hrow⟩
    exact ⟨hmissing, requests, rfl, hrow⟩

theorem Holds.isEnded_eq_false (h : s.Holds limits requests rest) : s.isEnded = false := by
  rw [Holds] at h
  rw [isEnded]
  split at h
  · cases h
  · next hphase => rw [hphase]
  · next hphase => rw [hphase]

/-- A session that has a complete request does not wait. -/
theorem Holds.not_waits (h : s.Holds limits (request :: requests) rest) : ¬ s.Waits limits := by
  intro hwaits
  rw [Waits] at hwaits
  rcases phase_of_open h.isEnded_eq_false with hphase | ⟨first, missing, hphase⟩
  · rw [hphase] at hwaits
    obtain ⟨hblank, hparse, -⟩ := hwaits
    obtain ⟨n, hfound, -⟩ := ((holds_head_iff hphase).mp h).parse hblank
    rw [hfound] at hparse
    cases hparse
  · rw [hphase] at hwaits
    obtain ⟨hmissing, hbuffer⟩ := hwaits
    have hle := ((holds_body_iff hphase).mp h).1
    rw [hbuffer] at hle
    exact absurd hmissing (Nat.not_lt_of_le hle)

theorem isIdle_iff : s.isIdle = true ↔ s.phase = .head ∧ s.buffer = [] := by
  simp [isIdle]

theorem Holds.isIdle_eq_false (h : s.Holds limits (request :: requests) rest) :
    s.isIdle = false := by
  rw [Bool.eq_false_iff, ne_eq, isIdle_iff]
  rintro ⟨hphase, hbuffer⟩
  obtain ⟨n, hfound, -⟩ :=
    ((holds_head_iff hphase).mp h).parse (by rw [hbuffer]; rfl)
  rw [hbuffer] at hfound
  cases hfound

/-- A step that answers nothing leaves a session all complete requests, also those of which the last
bytes have not come yet. -/
theorem Holds.step {data : Bytes} (h : (s.append data).Holds limits (request :: requests) rest)
    (hstep : Step site limits now s state t after) (hdue : s.due? = none)
    (hbusy : s.isIdle = false) :
    after = state ∧ (t.append data).Holds limits (request :: requests) rest := by
  cases hstep with
  | answer hphase =>
    rw [due?, hphase] at hdue
    cases hdue
  | @discard first missing hphase hmissing hbuffer =>
    refine ⟨rfl, ?_⟩
    obtain ⟨hle, hfirst, hrow⟩ := (holds_body_iff (s := s.append data) hphase).mp h
    rw [append_buffer, List.length_append] at hle
    rw [append_buffer] at hrow
    -- Either the body is there and something is left behind it, or all that is there is dropped.
    refine (holds_body_iff rfl).mpr ⟨?_, hfirst, ?_⟩
    · rw [append_buffer, List.length_append, List.length_drop]
      omega
    · rw [append_buffer]
      dsimp only
      rcases Nat.le_total missing s.buffer.length with hall | hless
      · rw [Nat.sub_eq_zero_of_le hall, List.drop_zero, ← List.drop_append_of_le_length hall]
        exact hrow
      · rw [List.drop_eq_nil_of_le hless, List.nil_append]
        rwa [List.drop_append, List.drop_eq_nil_of_le hless, List.nil_append] at hrow
  | blank hphase hblank =>
    have hrow := (holds_head_iff (s := s.append data) hphase).mp h
    refine ⟨rfl, (holds_head_iff ?_).mpr hrow.drop_blank⟩
    exact hphase
  | @refuse cause hphase hblank hparse =>
    have hrow := (holds_head_iff (s := s.append data) hphase).mp h
    obtain ⟨n, hfound, -⟩ := hrow.parse_front hblank (by rw [hparse]; intro h; cases h)
    rw [hparse] at hfound
    cases hfound
  | @accept first n hphase hblank hparse =>
    have hrow := (holds_head_iff (s := s.append data) hphase).mp h
    obtain ⟨k, hfound, hlength, hmore⟩ :=
      hrow.parse_front hblank (by rw [hparse]; intro h; cases h)
    rw [hparse] at hfound
    cases hfound
    exact ⟨rfl, (holds_body_iff rfl).mpr ⟨hlength, rfl, hmore⟩⟩
  | stop hphase hbuffer =>
    rw [Bool.eq_false_iff, ne_eq, isIdle_iff] at hbusy
    exact absurd ⟨hphase, hbuffer⟩ hbusy

/-! ## Complete requests are answered -/

theorem ranOutOfTime_resume (h : t.RanOutOfTime) (now : Moment) (events : List (Moment × Event))
    (after : Site.State) : (resume site limits now events t after).session.RanOutOfTime := by
  rw [resume_of_waits (waits_of_isEnded (isEnded_of_ranOutOfTime h))]
  exact ranOutOfTime_report h events after

theorem await_cases (limits : Limits) (now : Time) (s : Session) :
    (s.await limits now).phase = .head ∨ (s.await limits now).RanOutOfTime := by
  rw [await]
  split
  · exact Or.inr (Or.inr rfl)
  · exact Or.inl rfl

/-- What is left of a session when its first request is answered: a session with all its other
requests, whatever bytes may come. -/
def Leaves (limits : Limits) (request : Request) (s t : Session) : Prop :=
  ∀ data requests rest, (s.append data).Holds limits (request :: requests) rest →
    (t.append data).Holds limits requests rest

theorem Leaves.holds (h : Leaves limits request s t)
    (hs : s.Holds limits (request :: requests) rest) : t.Holds limits requests rest := by
  rw [← append_nil s] at hs
  rw [← append_nil t]
  exact h [] requests rest hs

theorem leaves_reply (hphase : s.phase = .body request 0) (site : Site) (limits : Limits)
    (now : Moment) (state : Site.State) (hkeep : request.keepAlive = true) :
    let t := s.reply limits now (site.answerAt s.served now request state).1
    t.RanOutOfTime ∨ Leaves limits request s t := by
  intro t
  have hanswer := site.answerAt_answer s.served now request state
  have ht : t = (s.sent (site.answerAt s.served now request state).1).await limits now.clock := by
    rw [show t = s.reply limits now _ from rfl, reply_of_written hanswer.written,
      if_pos (hanswer.keepAlive.trans hkeep)]
  rcases await_cases limits now.clock (s.sent (site.answerAt s.served now request state).1)
    with hhead | hlate
  · refine Or.inr fun data requests rest h => (holds_head_iff ?_).mpr ?_
    · rw [ht]
      exact hhead
    · have hrow := ((holds_body_iff (s := s.append data) hphase).mp h).2.2
      rw [ht, append_buffer, buffer_await]
      exact hrow
  · rw [ht]
    exact Or.inl hlate

/-- The first complete request is answered, whatever may come, and the others are left. -/
theorem Holds.resume_cons (h : s.Holds limits (request :: requests) rest) (site : Site)
    (now : Moment) (events : List (Moment × Event)) (state : Site.State) :
    ∃ t after, resume site limits now events s state
        = (resume site limits now events t after).prepend [(now, request)] ∧
      (request.keepAlive = true → t.RanOutOfTime ∨ Leaves limits request s t) := by
  induction s, state using settle_induction site limits now with
  | waits s state hwaits => exact absurd hwaits h.not_waits
  | step s state t after hstep ih =>
    cases hdue : s.due? with
    | some first =>
      have hphase := due?_eq_some_iff.mp hdue
      obtain ⟨-, rfl, -⟩ := (holds_body_iff hphase).mp h
      exact ⟨_, _, resume_answer hphase events, leaves_reply hphase site limits now state⟩
    | none =>
      have hbusy := h.isIdle_eq_false
      rw [← append_nil s] at h
      obtain ⟨rfl, ht⟩ := h.step hstep hdue hbusy
      rw [append_nil] at ht
      obtain ⟨u, after', hresume, hleft⟩ := ih ht
      refine ⟨u, after', (resume_of_step hstep hdue events).trans hresume, fun hkeep => ?_⟩
      refine (hleft hkeep).imp_right fun hleft data requests rest hdata => ?_
      exact hleft data requests rest (hdata.step hstep hdue hbusy).2

/-- What a report has to say if some requests come first: they are answered in their order, unless
time runs out before the last of them. -/
def Report.Answers (requests : List Request) (r : Report) : Prop :=
  requests <+: r.answered.map Prod.snd ∨
    r.answered.map Prod.snd <+: requests ∧ r.session.RanOutOfTime

theorem Report.Answers.prepend {r : Report} (h : r.Answers requests) (now : Moment)
    (request : Request) : (r.prepend [(now, request)]).Answers (request :: requests) := by
  rcases h with h | ⟨h, hlate⟩
  · exact Or.inl (List.cons_prefix_cons.mpr ⟨rfl, h⟩)
  · exact Or.inr ⟨List.cons_prefix_cons.mpr ⟨rfl, h⟩, hlate⟩

theorem answers_of_ranOutOfTime (h : t.RanOutOfTime) (requests : List Request) (now : Moment)
    (events : List (Moment × Event)) (after : Site.State) :
    (resume site limits now events t after).Answers requests := by
  have hended := isEnded_of_ranOutOfTime h
  rw [resume_of_waits (waits_of_isEnded hended), report_of_isEnded hended]
  exact Or.inr ⟨List.nil_prefix, ranOutOfTime_forget.mpr h⟩

/-- The complete requests are answered in order, up to the first one that closes the connection. -/
theorem Holds.answers (h : s.Holds limits requests rest) (site : Site) (now : Moment)
    (events : List (Moment × Event)) (state : Site.State) :
    (resume site limits now events s state).Answers (Request.upToClose requests) := by
  induction requests generalizing s state with
  | nil => exact Or.inl List.nil_prefix
  | cons request requests ih =>
    obtain ⟨t, after, hresume, hleft⟩ := h.resume_cons site now events state
    rw [hresume, Request.upToClose]
    by_cases hkeep : request.keepAlive = true
    · rw [if_pos hkeep]
      rcases hleft hkeep with hlate | hleft
      · exact (answers_of_ranOutOfTime hlate _ now events after).prepend now request
      · exact (ih (hleft.holds h) after).prepend now request
    · rw [if_neg hkeep]
      exact Or.inl (List.cons_prefix_cons.mpr ⟨rfl, List.nil_prefix⟩)

end ContentServer.Session
