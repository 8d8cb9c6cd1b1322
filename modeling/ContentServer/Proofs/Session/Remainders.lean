import ContentServer.Proofs.Session.Messages

/-!
# What comes after the last message

A client that sends good messages may end with something else: bytes that are no head, or a message
of which the last part is missing.  Nothing of that goes to the site.

* A head that is refused is answered with its fault, whatever follows it, and that is the last thing
  the session sends.
* If the input ends within a head or a body, the session sends nothing for it.

The bytes come one by one, and the parser looks at each part of the head.  What it says about all of
them it says as soon as it says anything (`Request.parse_append`), so the first part that makes it
speak is refused with the same fault as the whole (`closes_refused`).
-/

namespace ContentServer

namespace Request

/-! ## Parts of a buffer -/

theorem blankLength_left {buffer more : Bytes} (h : blankLength (buffer ++ more) = 0) :
    blankLength buffer = 0 := by
  have htake := blankLength_take h buffer.length
  rwa [List.take_left] at htake

theorem parse_left {maxBody : Nat} {buffer more : Bytes} (hblank : blankLength buffer = 0)
    (h : parse maxBody (buffer ++ more) = .ok none) : parse maxBody buffer = .ok none := by
  by_contra hsay
  rw [parse_append hblank hsay] at h
  exact hsay h

/-- The head of a request is all that the parser needs to find it. -/
theorem parse_take_consumed {maxBody : Nat} {buffer : Bytes} {r : Request} {n : Nat}
    (hblank : blankLength buffer = 0) (h : parse maxBody buffer = .ok (some (r, n))) :
    parse maxBody (buffer.take n) = .ok (some (r, n)) := by
  obtain ⟨i, text, hi, hshort, htext, hhead, hn⟩ := parse_eq_some_iff.mp h
  have hblank' := blankLength_take hblank n
  rw [hblank, List.drop_zero] at hi htext
  rw [hblank, Nat.zero_add] at hn
  have hfit := Text.firstIndex?_add_length_le hi
  refine parse_eq_some_iff.mpr ⟨i, text, ?_, hshort, ?_, hhead, ?_⟩
  · rw [hblank', List.drop_zero]
    cases hj : Text.firstIndex? headEnd (buffer.take n) with
    | some j =>
      have hsame := Text.firstIndex?_append hj (buffer.drop n)
      rw [List.take_append_drop, hi] at hsame
      exact hsame.symm
    | none =>
      -- The end of the head would reach beyond the part in which it ends.
      have hi' : Text.firstIndex? headEnd (buffer.take n ++ buffer.drop n) = some i := by
        rwa [List.take_append_drop]
      have hlate := Text.lt_of_firstIndex?_append hj hi'
      rw [List.length_take] at hlate
      omega
  · rw [hblank', List.drop_zero, List.take_take, Nat.min_eq_left (by omega)]
    exact htext
  · rw [hblank', Nat.zero_add]
    exact hn

end Request

namespace Session

variable {site : Site} {limits : Limits} {now last : Moment} {s : Session} {state : Site.State}

/-! ## Sessions that end without an answer -/

/-- What a report has to say if no request has gone to the site: at most some last bytes are
sent. -/
structure Report.Closes (closing : Bytes) (s : Session) (state : Site.State) (r : Report) :
    Prop where
  answered : r.answered = []
  output : r.session.output = s.output ++ closing
  served : r.session.served = s.served
  state : r.state = state

theorem closes_of_isEnded {t : Session} (h : t.isEnded = true) {closing : Bytes}
    (houtput : t.output = s.output ++ closing) (hserved : t.served = s.served)
    (events : List (Moment × Event)) :
    (report site limits events t state).Closes closing s state := by
  rw [report_of_isEnded h]
  exact ⟨rfl, (output_forget t).trans houtput, (served_forget t).trans hserved, rfl⟩

theorem closes_endOfInput (hopen : s.isEnded = false)
    (htime : ¬ (report site limits [(last, .endOfInput)] s state).session.RanOutOfTime) :
    (report site limits [(last, .endOfInput)] s state).Closes [] s state := by
  have hin : s.InTime last.clock := inTime_of_report htime
  have hreceive : s.receive last.clock .endOfInput = s.hangUp := receive_of_inTime hopen hin _
  have hended : s.hangUp.isEnded = true ∧ s.hangUp.output = s.output ∧
      s.hangUp.served = s.served := by
    rcases hangUp_of_open hopen with h | h
    · rw [h]
      exact ⟨rfl, rfl, rfl⟩
    · rw [h]
      exact ⟨rfl, rfl, rfl⟩
  rw [report_cons, hreceive, resume_of_waits (waits_of_isEnded hended.1)]
  exact closes_of_isEnded hended.1 (hended.2.1.trans (List.append_nil _).symm) hended.2.2 []

/-! ## Heads that do not end -/

theorem Ready.waits_of_parse (hs : s.Ready) {here : Bytes} (hblank : Request.blankLength here = 0)
    (hparse : Request.parse limits.maxBody here = .ok none) : (s.reading here).Waits limits := by
  rw [Waits, reading]
  dsimp only
  rw [hs.phase]
  dsimp only
  rw [hs.stopping]
  exact ⟨hblank, hparse, fun h => Bool.false_ne_true h.2⟩

theorem Ready.report_reading (hs : s.Ready) {here : Bytes} {b : UInt8}
    {events : List (Moment × Event)}
    (htime : ¬ (report site limits ((now, .bytes [b]) :: events) (s.reading here)
      state).session.RanOutOfTime) :
    report site limits ((now, .bytes [b]) :: events) (s.reading here) state
      = resume site limits now events (s.reading (here ++ [b])) state := by
  have hopen : (s.reading here).isEnded = false := hs.isEnded
  exact report_bytes hopen htime

/-- A head that is never complete is never answered. -/
theorem Ready.closes_head (hs : s.Ready) {here : Bytes} {bytes : List (Moment × UInt8)}
    (hblank : Request.blankLength (here ++ bytes.map Prod.snd) = 0)
    (hparse : Request.parse limits.maxBody (here ++ bytes.map Prod.snd) = .ok none)
    (htime : ¬ (report site limits (feed bytes ++ [(last, .endOfInput)]) (s.reading here)
      state).session.RanOutOfTime) :
    (report site limits (feed bytes ++ [(last, .endOfInput)]) (s.reading here) state).Closes []
      s state := by
  induction bytes generalizing here with
  | nil =>
    have hopen : (s.reading here).isEnded = false := hs.isEnded
    obtain ⟨hanswered, houtput, hserved, hstate⟩ := closes_endOfInput hopen htime
    exact ⟨hanswered, houtput, hserved, hstate⟩
  | cons first bytes ih =>
    obtain ⟨now, b⟩ := first
    rw [List.map_cons, List.append_cons] at hblank hparse
    rw [feed_cons] at htime ⊢
    have hblank' := Request.blankLength_left hblank
    have hwaits := hs.waits_of_parse hblank' (Request.parse_left hblank' hparse)
    have hread := hs.report_reading htime
    rw [resume_of_waits hwaits] at hread
    rw [hread] at htime ⊢
    exact ih hblank hparse htime

/-! ## Bodies that do not end -/

/-- A body that is never complete leaves its request without an answer. -/
theorem Ready.closes_body (hs : s.Ready) (request : Request) {missing : Nat}
    {bytes : List (Moment × UInt8)} (hshort : bytes.length < missing)
    (htime : ¬ (report site limits (feed bytes ++ [(last, .endOfInput)])
      (s.skipping request missing) state).session.RanOutOfTime) :
    (report site limits (feed bytes ++ [(last, .endOfInput)]) (s.skipping request missing)
      state).Closes [] s state := by
  induction bytes generalizing missing with
  | nil =>
    have hopen : (s.skipping request missing).isEnded = false := rfl
    obtain ⟨hanswered, houtput, hserved, hstate⟩ := closes_endOfInput hopen htime
    exact ⟨hanswered, houtput, hserved, hstate⟩
  | cons first bytes ih =>
    obtain ⟨now, b⟩ := first
    obtain ⟨left, rfl⟩ := Nat.exists_eq_succ_of_ne_zero (Nat.ne_of_gt (Nat.zero_lt_of_lt hshort))
    have hleft : bytes.length < left := Nat.lt_of_succ_lt_succ hshort
    have hopen : (s.skipping request (left + 1)).isEnded = false := rfl
    have hdue : ((s.skipping request (left + 1)).append [b]).due? = none := rfl
    have hwaits : (s.skipping request left).Waits limits :=
      ⟨Nat.zero_lt_of_lt hleft, hs.buffer⟩
    rw [feed_cons] at htime ⊢
    have hread := report_bytes hopen htime
    rw [resume_of_step (hs.step_skipping request left b) hdue, resume_of_waits hwaits] at hread
    rw [hread] at htime ⊢
    exact ih hleft htime

/-- A message of which the end of the body is missing is never answered. -/
theorem Ready.closes_message (hs : s.Ready) {request : Request} {n : Nat}
    {bytes : List (Moment × UInt8)} (hblank : Request.blankLength (bytes.map Prod.snd) = 0)
    (hparse : Request.parse limits.maxBody (bytes.map Prod.snd) = .ok (some (request, n)))
    (hshort : bytes.length < n + request.contentLength)
    (htime : ¬ (report site limits (feed bytes ++ [(last, .endOfInput)]) s
      state).session.RanOutOfTime) :
    (report site limits (feed bytes ++ [(last, .endOfInput)]) s state).Closes [] s state := by
  obtain ⟨hfour, hn⟩ := Request.parse_consumed hparse
  rw [List.length_map] at hn
  have hhead := Request.parse_take_consumed hblank hparse
  rw [← List.map_take] at hhead
  have hlength : ((bytes.take n).map Prod.snd).length = n := by
    rw [List.length_map, List.length_take, Nat.min_eq_left hn]
  have hblank' : Request.blankLength ((bytes.take n).map Prod.snd) = 0 := by
    rw [List.map_take]
    exact Request.blankLength_take hblank n
  have hne : bytes.take n ≠ [] := by
    intro h
    rw [h] at hlength
    simp only [List.map_nil, List.length_nil] at hlength
    omega
  have hsplit : feed bytes ++ [(last, .endOfInput)]
      = feed (bytes.take n) ++ (feed (bytes.drop n) ++ [(last, .endOfInput)]) := by
    rw [← List.append_assoc, ← feed_append, List.take_append_drop]
  have hnone : s.reading [] = s := hs.withBuffer
  have hparse' : Request.parse limits.maxBody ((bytes.take n).map Prod.snd)
      = .ok (some (request, ((bytes.take n).map Prod.snd).length)) := by
    rw [hlength]
    exact hhead
  have hrest : (bytes.drop n).length < request.contentLength := by
    rw [List.length_drop]
    omega
  have hwaits : (s.skipping request request.contentLength).Waits limits :=
    ⟨Nat.zero_lt_of_lt hrest, hs.buffer⟩
  rw [hsplit, ← hnone] at htime
  obtain ⟨now, hnext⟩ := report_head hs hblank' hparse' (List.nil_append _) hne htime
  rw [resume_of_waits hwaits] at hnext
  rw [hnext] at htime
  rw [hnone] at hnext
  rw [hsplit, hnext]
  exact hs.closes_body request hrest htime

/-! ## Heads that are refused -/

/-- What is sent for a head that is refused. -/
def refusal (cause : RequestFault) (now : Moment) : Response :=
  Response.protocolError (.request cause) now.wall

theorem Ready.step_refuse (hs : s.Ready) {here : Bytes} {cause : RequestFault}
    (hblank : Request.blankLength here = 0)
    (hparse : Request.parse limits.maxBody here = .error cause) :
    Step site limits now (s.reading here) state ((s.reading here).refuse now cause) state :=
  .refuse hs.phase hblank hparse

/-- A head that is refused is answered with its fault as soon as the fault is in sight. -/
theorem Ready.closes_refused (hs : s.Ready) {cause : RequestFault} {here : Bytes}
    {bytes : List (Moment × UInt8)}
    (hblank : Request.blankLength (here ++ bytes.map Prod.snd) = 0)
    (hparse : Request.parse limits.maxBody (here ++ bytes.map Prod.snd) = .error cause)
    (hhere : Request.parse limits.maxBody here = .ok none) {events : List (Moment × Event)}
    (htime : ¬ (report site limits (feed bytes ++ events) (s.reading here)
      state).session.RanOutOfTime) :
    ∃ arrival ∈ bytes, (report site limits (feed bytes ++ events) (s.reading here) state).Closes
      (refusal cause arrival.1).write.1 s state := by
  induction bytes generalizing here with
  | nil =>
    rw [List.map_nil, List.append_nil, hhere] at hparse
    cases hparse
  | cons first bytes ih =>
    obtain ⟨now, b⟩ := first
    rw [List.map_cons, List.append_cons] at hblank hparse
    rw [feed_cons] at htime ⊢
    have hblank' := Request.blankLength_left hblank
    have hread := hs.report_reading htime
    by_cases hnext : Request.parse limits.maxBody (here ++ [b]) = .ok none
    · rw [resume_of_waits (hs.waits_of_parse hblank' hnext)] at hread
      rw [hread] at htime ⊢
      obtain ⟨arrival, harrival, hcloses⟩ := ih hblank hparse hnext htime
      exact ⟨arrival, List.mem_cons_of_mem _ harrival, hcloses⟩
    · rw [Request.parse_append hblank' hnext] at hparse
      have hstep : Step site limits now (s.reading (here ++ [b])) state
          ((s.reading (here ++ [b])).refuse now cause) state := hs.step_refuse hblank' hparse
      rw [resume_of_step hstep (due?_eq_none_of_head hs.phase),
        resume_of_waits (waits_of_isEnded rfl)] at hread
      have hended : ((s.reading (here ++ [b])).refuse now cause).isEnded = true := rfl
      have houtput : ((s.reading (here ++ [b])).refuse now cause).output
          = s.output ++ (refusal cause now).write.1 := rfl
      rw [hread]
      exact ⟨(now, b), List.mem_cons_self, closes_of_isEnded hended houtput rfl _⟩

/-! ## Remainders -/

/-- Bytes that do not hold a whole message at their front, with the fault if the head is refused.
Line breaks in front do not count. -/
inductive Remainder (maxBody : Nat) : Bytes → Option RequestFault → Prop where
  /-- What stands in front is refused.  Anything may follow. -/
  | refused {bytes : Bytes} {cause : RequestFault} (more : Bytes)
      (hparse : Request.parse maxBody (bytes.drop (Request.blankLength bytes)) = .error cause) :
      Remainder maxBody (bytes ++ more) (some cause)
  /-- The head does not end. -/
  | head {bytes : Bytes}
      (hparse : Request.parse maxBody (bytes.drop (Request.blankLength bytes)) = .ok none) :
      Remainder maxBody bytes none
  /-- The head ends and the body does not. -/
  | body {bytes : Bytes} {request : Request} {n : Nat}
      (hparse : Request.parse maxBody (bytes.drop (Request.blankLength bytes))
        = .ok (some (request, n)))
      (hshort : (bytes.drop (Request.blankLength bytes)).length < n + request.contentLength) :
      Remainder maxBody bytes none

/-- What is sent last, if a head is refused at one of some moments. -/
def LastWord (moments : List Moment) : Option RequestFault → Bytes → Prop
  | none, closing => closing = []
  | some cause, closing => ∃ now ∈ moments, closing = (refusal cause now).write.1

theorem Ready.report_front (hs : s.Ready) {bytes : List (Moment × UInt8)}
    {events : List (Moment × Event)}
    (htime : ¬ (report site limits (feed bytes ++ events) s state).session.RanOutOfTime) :
    report site limits (feed bytes ++ events) s state
      = report site limits
          (feed (bytes.drop (Request.blankLength (bytes.map Prod.snd))) ++ events) s state := by
  generalize hk : Request.blankLength (bytes.map Prod.snd) = k
  have hblank : ∀ arrival ∈ bytes.take k, Request.isLineBreak arrival.2 = true := by
    intro arrival h
    have hmem : arrival.2
        ∈ (bytes.map Prod.snd).take (Request.blankLength (bytes.map Prod.snd)) := by
      rw [hk, ← List.map_take]
      exact List.mem_map_of_mem h
    exact Request.isLineBreak_of_mem_take hmem
  have hsplit : feed bytes ++ events
      = feed (bytes.take k) ++ (feed (bytes.drop k) ++ events) := by
    rw [← List.append_assoc, ← feed_append, List.take_append_drop]
  rw [hsplit] at htime ⊢
  exact report_blank hs hblank htime

theorem Remainder.parse_refused {maxBody : Nat} {bytes : Bytes} {cause : RequestFault}
    (h : Remainder maxBody bytes (some cause)) :
    Request.parse maxBody (bytes.drop (Request.blankLength bytes)) = .error cause := by
  cases h with
  | @refused bytes cause more hparse =>
    have hsay : Request.parse maxBody (bytes.drop (Request.blankLength bytes)) ≠ .ok none := by
      rw [hparse]
      intro h
      cases h
    have hle := Request.blankLength_le bytes
    have hless : Request.blankLength bytes < bytes.length := by
      have hpos := Request.length_pos_of_parse hsay
      rw [List.length_drop] at hpos
      omega
    rw [Request.blankLength_append_of_lt hless, List.drop_append_of_le_length hle,
      Request.parse_append (Request.blankLength_drop bytes) hsay]
    exact hparse

theorem Ready.closes_remainder (hs : s.Ready) {fault : Option RequestFault}
    {bytes : List (Moment × UInt8)}
    (hremainder : Remainder limits.maxBody (bytes.map Prod.snd) fault)
    (htime : ¬ (report site limits (feed bytes ++ [(last, .endOfInput)]) s
      state).session.RanOutOfTime) :
    ∃ closing, LastWord (bytes.map Prod.fst) fault closing ∧
      (report site limits (feed bytes ++ [(last, .endOfInput)]) s state).Closes closing s
        state := by
  have hfront := hs.report_front htime
  rw [hfront] at htime ⊢
  have hblank := Request.blankLength_drop (bytes.map Prod.snd)
  have hnone : s.reading [] = s := hs.withBuffer
  generalize hdata : bytes.map Prod.snd = data at hremainder htime hblank ⊢
  generalize hcore : bytes.drop (Request.blankLength data) = core at htime ⊢
  have hbytes : core.map Prod.snd = data.drop (Request.blankLength data) := by
    rw [← hcore, List.map_drop, hdata]
  have hsub : ∀ arrival ∈ core, arrival.1 ∈ bytes.map Prod.fst := by
    intro arrival h
    rw [← hcore] at h
    exact List.mem_map_of_mem (List.mem_of_mem_drop h)
  rw [← hbytes] at hblank
  cases fault with
  | some cause =>
    have hparse := hremainder.parse_refused
    rw [← hbytes] at hparse
    have hstart : Request.parse limits.maxBody [] = .ok none := rfl
    rw [← hnone] at htime
    obtain ⟨arrival, harrival, hcloses⟩ := hs.closes_refused hblank hparse hstart htime
    rw [hnone] at hcloses
    exact ⟨_, ⟨arrival.1, hsub arrival harrival, rfl⟩, hcloses⟩
  | none =>
    refine ⟨[], rfl, ?_⟩
    cases hremainder with
    | head hparse =>
      rw [← hbytes] at hparse
      rw [← hnone] at htime
      have hcloses := hs.closes_head hblank hparse htime
      rwa [hnone] at hcloses
    | @body _ request n hparse hshort =>
      rw [← hbytes] at hparse hshort
      rw [List.length_map] at hshort
      exact hs.closes_message hblank hparse hshort htime

/-! ## Good messages first -/

/-- A session answers good messages that keep the connection open, and is ready again. -/
theorem Ready.report_messages (hs : s.Ready) (messages : List (Message limits.maxBody))
    (hkeep : ∀ m ∈ messages, m.request.keepAlive = true) {bytes : List (Moment × UInt8)}
    (hbytes : bytes.map Prod.snd = messages.flatMap Message.bytes)
    {events : List (Moment × Event)}
    (htime : ¬ (report site limits (feed bytes ++ events) s state).session.RanOutOfTime) :
    ∃ (answered : List (Moment × Request)) (t : Session), t.Ready ∧
      answered.map Prod.snd = messages.map Message.request ∧
      t.output = s.output ++ ((site.answerFrom s.served answered state).1.map
        fun response => response.write.1).flatten ∧
      t.served = s.served + answered.length ∧
      report site limits (feed bytes ++ events) s state
        = (report site limits events t
            (site.answerFrom s.served answered state).2).prepend answered := by
  induction messages generalizing s state bytes with
  | nil =>
    obtain rfl : bytes = [] := List.map_eq_nil_iff.mp hbytes
    exact ⟨[], s, hs, rfl, (List.append_nil _).symm, rfl, rfl⟩
  | cons m messages ih =>
    rw [List.flatMap_cons] at hbytes
    obtain ⟨first, rest, rfl, hfirst, hrest⟩ := List.map_eq_append_iff.mp hbytes
    rw [feed_append, List.append_assoc] at htime ⊢
    obtain ⟨now, hreport⟩ := report_message hs m hfirst htime
    rw [hreport] at htime
    have hanswer := site.answerAt_answer s.served now m.request state
    have hopen : (site.answerAt s.served now m.request state).1.keepAlive = true :=
      hanswer.keepAlive.trans (hkeep m List.mem_cons_self)
    rcases hs.reply hanswer.written hopen limits now with hready | hlate
    · obtain ⟨answered, t, ht, hanswered, houtput, hserved, hnext⟩ :=
        ih hready (fun m h => hkeep m (List.mem_cons_of_mem _ h)) hrest htime
      refine ⟨(now, m.request) :: answered, t, ht, ?_, ?_, ?_, ?_⟩
      · rw [List.map_cons, hanswered, List.map_cons]
      · rw [houtput, output_reply hanswer.written, served_reply hanswer.written,
          Site.answerFrom_cons, List.map_cons, List.flatten_cons, List.append_assoc]
      · rw [hserved, served_reply hanswer.written, List.length_cons]
        omega
      · rw [hreport, hnext, ← Report.prepend_append, served_reply hanswer.written,
          Site.answerFrom_cons]
        rfl
    · exact absurd (ranOutOfTime_report hlate _ _) htime

/-- What a report has to say if a session has answered some requests and had a last word. -/
structure Report.Concludes (site : Site) (requests : List Request) (closing : Bytes) (s : Session)
    (state : Site.State) (r : Report) : Prop where
  answered : r.answered.map Prod.snd = requests
  output : r.session.output
    = s.output ++ ((site.answerFrom s.served r.answered state).1.map
        fun response => response.write.1).flatten ++ closing
  served : r.session.served = s.served + r.answered.length
  state : r.state = (site.answerFrom s.served r.answered state).2

/-- A ready session answers good messages and then has the last word on the remainder. -/
theorem Ready.concludes (hs : s.Ready) (messages : List (Message limits.maxBody))
    (hkeep : ∀ m ∈ messages, m.request.keepAlive = true) {remainder : Bytes}
    {fault : Option RequestFault} (hremainder : Remainder limits.maxBody remainder fault)
    {bytes : List (Moment × UInt8)}
    (hbytes : bytes.map Prod.snd = messages.flatMap Message.bytes ++ remainder)
    (htime : ¬ (report site limits (feed bytes ++ [(last, .endOfInput)]) s
      state).session.RanOutOfTime) :
    ∃ closing, LastWord (bytes.map Prod.fst) fault closing ∧
      (report site limits (feed bytes ++ [(last, .endOfInput)]) s state).Concludes site
        (messages.map Message.request) closing s state := by
  obtain ⟨good, rest, rfl, hgood, rfl⟩ := List.map_eq_append_iff.mp hbytes
  rw [feed_append, List.append_assoc] at htime ⊢
  obtain ⟨answered, t, ht, hanswered, houtput, hserved, hreport⟩ :=
    hs.report_messages messages hkeep hgood htime
  rw [hreport] at htime ⊢
  obtain ⟨closing, hlast, hcloses⟩ := ht.closes_remainder hremainder htime
  have hsame : answered ++ (report site limits (feed rest ++ [(last, .endOfInput)]) t
      (site.answerFrom s.served answered state).2).answered = answered := by
    rw [hcloses.answered, List.append_nil]
  refine ⟨closing, ?_, ?_, ?_, ?_, ?_⟩
  · cases fault with
    | none => exact hlast
    | some cause =>
      obtain ⟨now, hnow, rfl⟩ := hlast
      rw [List.map_append]
      exact ⟨now, List.mem_append_right _ hnow, rfl⟩
  · rw [Report.prepend, hsame]
    exact hanswered
  · rw [Report.prepend, hsame, ← houtput]
    exact hcloses.output
  · rw [Report.prepend, hsame, ← hserved]
    exact hcloses.served
  · rw [Report.prepend, hsame]
    exact hcloses.state

theorem LastWord.of_arrivals {reads : List (Moment × Bytes)} {fault : Option RequestFault}
    {closing : Bytes} (h : LastWord ((arrivals reads).map Prod.fst) fault closing) :
    LastWord (reads.map Prod.fst) fault closing := by
  cases fault with
  | none => exact h
  | some cause =>
    obtain ⟨now, hnow, rfl⟩ := h
    obtain ⟨arrival, harrival, rfl⟩ := List.mem_map.mp hnow
    obtain ⟨read, hread, hbyte⟩ := List.mem_flatMap.mp harrival
    obtain ⟨b, -, rfl⟩ := List.mem_map.mp hbyte
    exact ⟨read.1, List.mem_map_of_mem hread, rfl⟩

/-- A session that is sent good messages and then a remainder, and does not run out of time, answers
the messages and nothing else.  For the remainder it sends one answer, which closes the connection,
if its head is refused, and otherwise nothing.  No request of it goes to the site, so the cache and
the visits to the provider are those that the messages have left. -/
theorem remainder_not_routed (site : Site) (limits : Limits) (begin : Time)
    (messages : List (Message limits.maxBody))
    (hkeep : ∀ m ∈ messages, m.request.keepAlive = true) (remainder : Bytes)
    (fault : Option RequestFault) (hremainder : Remainder limits.maxBody remainder fault)
    (reads : List (Moment × Bytes)) (hne : ∀ read ∈ reads, read.2 ≠ [])
    (hbytes : reads.flatMap Prod.snd = messages.flatMap Message.bytes ++ remainder) (last : Moment)
    (state : Site.State) (htime : ¬ (run site limits begin reads last state).1.RanOutOfTime) :
    let answered := routed site limits begin reads last state
    let answers :=
      ((site.answerFrom 0 answered state).1.map fun response => response.write.1).flatten
    let r := run site limits begin reads last state
    answered.map Prod.snd = messages.map Message.request ∧ r.1.served = messages.length ∧
      r.2 = (site.answerFrom 0 answered state).2 ∧
      match fault with
      | none => r.1.output = answers
      | some cause => ∃ now ∈ reads.map Prod.fst,
          let response := Response.protocolError (.request cause) now.wall
          response.status = (if cause = .bodyTooLarge then .contentTooLarge else .badRequest) ∧
            response.keepAlive = false ∧ r.1.output = answers ++ response.write.1 := by
  intro answered answers r
  have hreport := report_reads site limits (stopping_start limits begin) reads hne
    [(last, .endOfInput)] state
  have htime' : ¬ (report site limits (feed (arrivals reads) ++ [(last, .endOfInput)])
      (start limits begin) state).session.RanOutOfTime := by
    rw [← hreport]
    exact fun h => htime (ranOutOfTime_forget.mp h)
  have hready : (start limits begin).Ready := by
    rcases ready_await (s := {}) limits begin rfl rfl with hready | hlate
    · exact hready
    · exact absurd (ranOutOfTime_report hlate _ _) htime'
  obtain ⟨closing, hlast, hconcludes⟩ := hready.concludes messages hkeep hremainder
    ((map_snd_arrivals reads).trans hbytes) htime'
  rw [← hreport] at hconcludes
  have houtput : r.1.output = answers ++ closing := by
    rw [← output_forget]
    refine hconcludes.output.trans ?_
    rw [output_start, served_start, List.nil_append]
    rfl
  have hstate : r.2 = (site.answerFrom 0 answered state).2 := by
    refine hconcludes.state.trans ?_
    rw [served_start]
    rfl
  refine ⟨hconcludes.answered, ?_, hstate, ?_⟩
  · rw [← served_forget]
    refine hconcludes.served.trans ?_
    rw [served_start, Nat.zero_add, ← List.length_map Prod.snd, hconcludes.answered,
      List.length_map]
  · cases fault with
    | none =>
      rw [houtput, show closing = [] from hlast.of_arrivals, List.append_nil]
    | some cause =>
      obtain ⟨now, hnow, rfl⟩ := hlast.of_arrivals
      exact ⟨now, hnow, by cases cause <;> rfl, rfl, houtput⟩

/-- A request whose body is too long, with a request behind it that is not answered. -/
theorem remainder_of_a_body_too_long :
    let site := Site.ofLibrary "/f" ⟨"/content"⟩ {} (fun _ => Codec.failing) ⟨fun _ => none, []⟩
    let limits : Limits := { readTimeout := 5, maxBody := 20 }
    let now : Moment := ⟨3, 0⟩
    let good := Bytes.ofText "GET /a HTTP/1.1\r\n\r\n"
    let bad := Bytes.ofText "\r\nPOST / HTTP/1.1\r\nContent-Length: 21\r\n\r\n"
    let r := run site limits 3 [(now, good), (now, bad ++ good)] now { cache := ⟨4, []⟩ }
    let refusal := Response.protocolError (.request .bodyTooLarge) now.wall
    r.1.served = 1 ∧ ∃ answers, r.1.output = answers ++ refusal.write.1 := by
  have hgood : Request.parse 20 (Bytes.ofText "GET /a HTTP/1.1\r\n\r\n")
      = .ok (some ({ method := .get, target := "/a", version := .v11 }, 19)) := rfl
  have hbad : Request.parse 20 (Bytes.ofText "POST / HTTP/1.1\r\nContent-Length: 21\r\n\r\n")
      = .error .bodyTooLarge := rfl
  intro site limits now good bad r refusal
  let messages : List (Message limits.maxBody) := [⟨[], good, [], _, by simp, hgood, rfl⟩]
  have hkeep : ∀ m ∈ messages, m.request.keepAlive = true := by
    intro m h
    rw [List.mem_singleton.mp h]
    rfl
  have hremainder : Remainder limits.maxBody (bad ++ good) (some .bodyTooLarge) :=
    .refused good hbad
  let reads : List (Moment × Bytes) := [(now, good), (now, bad ++ good)]
  have hne : ∀ read ∈ reads, read.2 ≠ [] := by
    intro read h
    rcases List.mem_cons.mp h with rfl | h
    · exact fun h => nomatch congrArg List.length h
    · rw [List.mem_singleton.mp h]
      exact fun h => nomatch congrArg List.length h
  have hbytes : reads.flatMap Prod.snd = messages.flatMap Message.bytes ++ (bad ++ good) := by
    simp [reads, messages, Message.bytes]
  have htime : ¬ (run site limits 3 reads now { cache := ⟨4, []⟩ }).1.RanOutOfTime :=
    not_ranOutOfTime_serve rfl site [good, bad ++ good] { cache := ⟨4, []⟩ }
  obtain ⟨-, hserved, -, hrefused⟩ := remainder_not_routed site limits 3 messages hkeep _ _
    hremainder reads hne hbytes now _ htime
  obtain ⟨now', hnow', -, -, houtput⟩ := hrefused
  obtain rfl : now' = now := by simpa [reads] using hnow'
  exact ⟨hserved, _, houtput⟩

end Session

end ContentServer
