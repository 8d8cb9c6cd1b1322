import ContentServer.Proofs.Http.Parsing
import ContentServer.Proofs.Session.Reports

/-!
# Reads of a session

Bytes reach a session in reads, and where one read ends and the next begins is up to the network.
Nothing depends on it: what counts is which byte arrives at which moment.

The reason is that a session never regrets a step.  Suppose that it takes a step and then more
bytes arrive.  Had they been there before, it would have taken the same step, or one that goes
further and that it can still catch up with (`Step.append`).  The second case is that of bytes which
are dropped, because as many are dropped as there are.  So it makes no difference whether a session
settles before more bytes arrive or after that (`settle_append`).

* A read can be split (`report_split`), so reads can be taken apart into single bytes
  (`report_reads`).
* Two rows of reads with the same arrivals lead to the same end (`run_eq_of_arrivals_eq`).
-/

namespace ContentServer.Session

variable {site : Site} {limits : Limits} {now : Moment} {s t : Session} {state after : Site.State}

/-! ## More bytes in the buffer -/

/-- The session with more bytes in its buffer. -/
def append (s : Session) (data : Bytes) : Session := { s with buffer := s.buffer ++ data }

theorem append_buffer (s : Session) (data : Bytes) :
    (s.append data).buffer = s.buffer ++ data := rfl

theorem append_nil (s : Session) : s.append [] = s := by
  rw [append, List.append_nil]

theorem append_append (s : Session) (data more : Bytes) :
    (s.append data).append more = s.append (data ++ more) := by
  rw [append, append, append, List.append_assoc]

theorem append_await (limits : Limits) (now : Time) (s : Session) (data : Bytes) :
    (s.append data).await limits now = (s.await limits now).append data := by
  simp only [await]
  split <;> rfl

theorem append_reply (limits : Limits) (now : Moment) (response : Response) (s : Session)
    (data : Bytes) :
    (s.append data).reply limits now response = (s.reply limits now response).append data := by
  simp only [reply]
  split
  · rfl
  · split
    · exact append_await limits now.clock
        { s.send response.write.1 with served := s.served + 1 } data
    · rfl

/-- Two sessions get to the same point with their next step. -/
def Meets (site : Site) (limits : Limits) (now : Moment) (state : Site.State) (s t : Session) :
    Prop :=
  ∃ u, Step site limits now s state u state ∧ Step site limits now t state u state

/-- More bytes arrive while those of a body are dropped.  They either come behind the body, or the
session drops some of them, too. -/
theorem Step.append_discard {request : Request} {missing : Nat}
    (hphase : s.phase = .body request missing) (hmissing : 0 < missing) (hbuffer : s.buffer ≠ [])
    {data : Bytes} (hdata : data ≠ []) :
    let t : Session := { s with phase := .body request (missing - s.buffer.length),
                                buffer := s.buffer.drop missing }
    Step site limits now (s.append data) state (t.append data) state ∨
      t.due? = none ∧ Meets site limits now state (s.append data) (t.append data) := by
  intro t
  have hstep : Step site limits now (s.append data) state
      { s with phase := .body request (missing - (s.buffer ++ data).length),
               buffer := (s.buffer ++ data).drop missing } state :=
    .discard hphase hmissing (by simp [Session.append, hbuffer])
  rcases Nat.lt_or_ge s.buffer.length missing with hless | hall
  · right
    have hmore : 0 < missing - s.buffer.length := Nat.sub_pos_of_lt hless
    have hnone : t.buffer = [] := List.drop_eq_nil_of_le (Nat.le_of_lt hless)
    have hmissing' : missing - (s.buffer ++ data).length
        = missing - s.buffer.length - (t.buffer ++ data).length := by
      rw [hnone, List.nil_append, List.length_append]
      omega
    have hbuffer' : (s.buffer ++ data).drop missing
        = (t.buffer ++ data).drop (missing - s.buffer.length) := by
      rw [List.drop_append, List.drop_eq_nil_of_le (Nat.le_of_lt hless), hnone]
      rfl
    refine ⟨due?_eq_none_of_missing rfl hmore, _, hstep, ?_⟩
    rw [hmissing', hbuffer']
    refine .discard rfl hmore ?_
    show t.buffer ++ data ≠ []
    rw [hnone]
    exact hdata
  · left
    have hmissing' : missing - (s.buffer ++ data).length = missing - s.buffer.length := by
      rw [List.length_append]
      omega
    rw [hmissing', List.drop_append_of_le_length hall] at hstep
    exact hstep

/-- More bytes arrive while line breaks are dropped.  If they start with line breaks, the session
may drop these, too. -/
theorem Step.append_blank (hphase : s.phase = .head) (hblank : 0 < Request.blankLength s.buffer)
    (data : Bytes) :
    let t : Session := { s with buffer := s.buffer.drop (Request.blankLength s.buffer) }
    Step site limits now (s.append data) state (t.append data) state ∨
      Meets site limits now state (s.append data) (t.append data) := by
  intro t
  have hle := Request.blankLength_le s.buffer
  have hstep (h : 0 < Request.blankLength (s.buffer ++ data)) :
      Step site limits now (s.append data) state
        { s with buffer := (s.buffer ++ data).drop (Request.blankLength (s.buffer ++ data)) }
        state :=
    .blank hphase h
  rcases Nat.lt_or_eq_of_le hle with hless | hall
  · left
    rw [Request.blankLength_append_of_lt hless, List.drop_append_of_le_length hle] at hstep
    exact hstep hblank
  · -- The buffer holds line breaks only, so what has arrived decides.
    rw [Request.blankLength_append_of_eq hall, ← List.drop_drop, List.drop_left] at hstep
    have hnone : t.buffer = [] := List.drop_eq_nil_of_le (Nat.le_of_eq hall.symm)
    have hmore : t.append data = { s with buffer := data } := by
      rw [Session.append, hnone, List.nil_append]
    rw [hmore]
    rcases Nat.eq_zero_or_pos (Request.blankLength data) with hno | hblank'
    · left
      rw [hno, List.drop_zero] at hstep
      exact hstep (by omega)
    · right
      exact ⟨_, hstep (by omega), .blank hphase hblank'⟩

/-- A step can be taken as well when more bytes are there, unless the session would then drop more
of them.  In that case it gets to the same point one step later. -/
theorem Step.append (h : Step site limits now s state t after) (hrun : s.stopping = false)
    {data : Bytes} (hdata : data ≠ []) :
    Step site limits now (s.append data) state (t.append data) after ∨
      after = state ∧ s.due? = none ∧ t.due? = none ∧
        Meets site limits now state (s.append data) (t.append data) := by
  cases h with
  | answer hphase =>
    left
    rw [← append_reply]
    exact .answer hphase
  | discard hphase hmissing hbuffer =>
    rcases Step.append_discard hphase hmissing hbuffer hdata with hsame | ⟨hdue, hmeets⟩
    · exact Or.inl hsame
    · exact Or.inr ⟨rfl, due?_eq_none_of_missing hphase hmissing, hdue, hmeets⟩
  | blank hphase hblank =>
    rcases Step.append_blank hphase hblank data with hsame | hmeets
    · exact Or.inl hsame
    · exact Or.inr ⟨rfl, due?_eq_none_of_head hphase, due?_eq_none_of_head hphase, hmeets⟩
  | refuse hphase hblank hparse =>
    left
    have hsay : Request.parse limits.maxBody s.buffer ≠ .ok none := by rw [hparse]; nofun
    exact .refuse hphase (Request.blankLength_append_of_parse hblank hsay data)
      ((Request.parse_append hblank hsay data).trans hparse)
  | @accept request n hphase hblank hparse =>
    left
    have hsay : Request.parse limits.maxBody s.buffer ≠ .ok none := by rw [hparse]; nofun
    have hstep : Step site limits now (s.append data) state
        { s with phase := .body request request.contentLength,
                 buffer := (s.buffer ++ data).drop n } state :=
      .accept hphase (Request.blankLength_append_of_parse hblank hsay data)
        ((Request.parse_append hblank hsay data).trans hparse)
    rw [List.drop_append_of_le_length (Request.parse_consumed hparse).2] at hstep
    exact hstep
  | stop hphase hbuffer hstopping => rw [hrun] at hstopping; cases hstopping

/-! ## Settling before and after -/

theorem Meets.settle (h : Meets site limits now state s t) :
    settle site limits now s state = settle site limits now t state := by
  obtain ⟨u, hs, ht⟩ := h
  rw [settle_of_step hs, settle_of_step ht]

theorem Meets.answered (h : Meets site limits now state s t) (hs : s.due? = none)
    (ht : t.due? = none) :
    answered site limits now s state = answered site limits now t state := by
  obtain ⟨u, hsu, htu⟩ := h
  rw [answered_of_step hsu, answered_of_step htu, hs, ht]

/-- It makes no difference whether a session settles before more bytes arrive or after that. -/
theorem settle_append (site : Site) (limits : Limits) (now : Moment) (s : Session)
    (state : Site.State) (hrun : s.stopping = false) (data : Bytes) :
    settle site limits now (s.append data) state
        = settle site limits now ((settle site limits now s state).1.append data)
            (settle site limits now s state).2 ∧
      answered site limits now (s.append data) state
        = answered site limits now s state
            ++ answered site limits now ((settle site limits now s state).1.append data)
                (settle site limits now s state).2 := by
  rcases eq_or_ne data [] with rfl | hdata
  · have hwaits := waits_settle site limits now s state
    rw [append_nil, append_nil, settle_of_waits hwaits, answered_of_waits hwaits,
      List.append_nil]
    exact ⟨rfl, rfl⟩
  induction s, state using settle_induction site limits now with
  | waits s state h =>
    rw [settle_of_waits h, answered_of_waits h]
    exact ⟨rfl, rfl⟩
  | step s state t after h ih =>
    have ih := ih (h.stopping.trans hrun)
    rw [settle_of_step h, answered_of_step h]
    rcases h.append hrun hdata with hsame | ⟨rfl, hdue, hdue', hmeets⟩
    · have hdue : (s.append data).due? = s.due? := rfl
      rw [settle_of_step hsame, answered_of_step hsame, ih.1, ih.2, hdue, List.append_assoc]
      exact ⟨rfl, rfl⟩
    · rw [hmeets.settle, hmeets.answered hdue hdue', ih.1, ih.2, hdue]
      exact ⟨rfl, rfl⟩

/-! ## Splitting a read -/

theorem receive_bytes (h : s.isEnded = false) {now : Time} (hs : s.InTime now) (data : Bytes) :
    s.receive now (.bytes data) = s.append data := by
  rw [receive_of_inTime h hs, append]

/-- What an ended session has in its buffer does not matter. -/
theorem report_append_of_isEnded (h : s.isEnded = true) (events : List (Moment × Event))
    (state : Site.State) (data : Bytes) :
    report site limits events (s.append data) state = report site limits events s state := by
  have hmore : (s.append data).isEnded = true := h
  rw [report_of_isEnded h, report_of_isEnded hmore, forget, forget, if_pos h, if_pos hmore]
  rfl

/-- Bytes that are there may as well arrive after the session has settled. -/
theorem resume_append (hrun : s.stopping = false) (hs : s.InTime now.clock) (data : Bytes)
    (events : List (Moment × Event)) (state : Site.State) :
    resume site limits now events (s.append data) state
      = resume site limits now ((now, .bytes data) :: events) s state := by
  obtain ⟨hsettle, hanswered⟩ := settle_append site limits now s state hrun data
  have hin := inTime_settle site limits state hs
  rw [resume, resume, hsettle, hanswered, List.map_append, Report.prepend_append]
  congr 1
  generalize settle site limits now s state = r at hin
  obtain ⟨r, after⟩ := r
  show resume site limits now events (r.append data) after = _
  cases hopen : r.isEnded with
  | true =>
    have hmore : (r.append data).isEnded = true := hopen
    rw [report_cons_of_isEnded hopen, resume_of_waits (waits_of_isEnded hmore),
      report_append_of_isEnded hopen]
  | false => rw [report_cons, receive_bytes hopen hin]

/-- A read can be split into two at one moment. -/
theorem report_split (hrun : s.stopping = false) (now : Moment) (data more : Bytes)
    (events : List (Moment × Event)) (state : Site.State) :
    report site limits ((now, .bytes (data ++ more)) :: events) s state
      = report site limits ((now, .bytes data) :: (now, .bytes more) :: events) s state := by
  rw [← report_expire now (.bytes (data ++ more)), ← report_expire now (.bytes data)]
  have hin := inTime_expire now.clock s
  have hrun : (s.expire now.clock).stopping = false := (stopping_expire now.clock s).trans hrun
  generalize s.expire now.clock = s at hin hrun
  cases hopen : s.isEnded with
  | true =>
    rw [report_cons_of_isEnded hopen, report_cons_of_isEnded hopen, report_cons_of_isEnded hopen]
  | false =>
    rw [report_cons, report_cons, receive_bytes hopen hin, receive_bytes hopen hin,
      ← append_append]
    have hrun' : (s.append data).stopping = false := hrun
    have hin' : (s.append data).InTime now.clock := hin
    exact resume_append hrun' hin' more events state

/-! ## Reads and arrivals -/

/-- The events that some reads are. -/
def deliver (reads : List (Moment × Bytes)) : List (Moment × Event) :=
  reads.map fun (now, data) => (now, .bytes data)

theorem deliver_cons (now : Moment) (data : Bytes) (reads : List (Moment × Bytes))
    (events : List (Moment × Event)) :
    deliver ((now, data) :: reads) ++ events
      = (now, .bytes data) :: (deliver reads ++ events) := rfl

/-- The bytes that arrive in some reads, each with its moment. -/
def arrivals (reads : List (Moment × Bytes)) : List (Moment × UInt8) :=
  reads.flatMap fun (now, data) => data.map (now, ·)

theorem arrivals_cons (now : Moment) (data : Bytes) (reads : List (Moment × Bytes)) :
    arrivals ((now, data) :: reads) = data.map (now, ·) ++ arrivals reads := rfl

theorem map_snd_arrivals (reads : List (Moment × Bytes)) :
    (arrivals reads).map Prod.snd = reads.flatMap Prod.snd := by
  induction reads with
  | nil => rfl
  | cons first reads ih =>
    rw [arrivals_cons, List.map_append, ih, List.flatMap_cons, List.map_map]
    exact congrArg (· ++ reads.flatMap Prod.snd) (List.map_id first.2)

/-- The events that arrivals are if every byte is read on its own. -/
def feed (bytes : List (Moment × UInt8)) : List (Moment × Event) :=
  bytes.map fun (now, b) => (now, .bytes [b])

theorem feed_cons (now : Moment) (b : UInt8) (bytes : List (Moment × UInt8))
    (events : List (Moment × Event)) :
    feed ((now, b) :: bytes) ++ events = (now, .bytes [b]) :: (feed bytes ++ events) := rfl

theorem feed_append (bytes more : List (Moment × UInt8)) :
    feed (bytes ++ more) = feed bytes ++ feed more := List.map_append

/-- If two rows of events always lead to the same report, they also do behind a read. -/
theorem report_read_congr {events events' : List (Moment × Event)}
    (h : ∀ {s : Session}, s.stopping = false → ∀ state : Site.State,
      report site limits events s state = report site limits events' s state)
    (hrun : s.stopping = false) (now : Moment) (data : Bytes) (state : Site.State) :
    report site limits ((now, .bytes data) :: events) s state
      = report site limits ((now, .bytes data) :: events') s state := by
  rw [report_cons, report_cons, resume, resume,
    h ((stopping_read site limits now data s state).trans hrun)]

/-- A read can be taken apart into single bytes.  The first byte is not among the others because an
empty read would still let a session run out of time. -/
theorem report_read (hrun : s.stopping = false) (now : Moment) (b : UInt8) (bs : Bytes)
    (events : List (Moment × Event)) (state : Site.State) :
    report site limits ((now, .bytes (b :: bs)) :: events) s state
      = report site limits (feed ((b :: bs).map (now, ·)) ++ events) s state := by
  induction bs generalizing b s state with
  | nil => rfl
  | cons c bs ih =>
    rw [List.map_cons, feed_cons,
      ← report_read_congr (fun hrun state => ih hrun c state) hrun now [b] state]
    exact report_split hrun now [b] (c :: bs) events state

/-- Reads can be taken apart into single bytes. -/
theorem report_reads (site : Site) (limits : Limits) (hrun : s.stopping = false)
    (reads : List (Moment × Bytes)) (hne : ∀ read ∈ reads, read.2 ≠ [])
    (events : List (Moment × Event)) (state : Site.State) :
    report site limits (deliver reads ++ events) s state
      = report site limits (feed (arrivals reads) ++ events) s state := by
  induction reads generalizing s state with
  | nil => rfl
  | cons first reads ih =>
    obtain ⟨now, data⟩ := first
    obtain ⟨b, bs, rfl⟩ := List.exists_cons_of_ne_nil (hne _ List.mem_cons_self)
    have hrest := fun read hread => hne read (List.mem_cons_of_mem _ hread)
    rw [deliver_cons, report_read_congr (fun hrun state => ih hrun hrest state) hrun,
      report_read hrun, arrivals_cons, feed_append, List.append_assoc]

/-- The session on a connection that is accepted at some moment, with some reads and then the end
of its input. -/
def run (site : Site) (limits : Limits) (begin : Time) (reads : List (Moment × Bytes))
    (last : Moment) (state : Site.State) : Session × Site.State :=
  handleAll site limits (deliver reads ++ [(last, .endOfInput)]) (start limits begin) state

/-- The requests that go to the site, each with its moment. -/
def routed (site : Site) (limits : Limits) (begin : Time) (reads : List (Moment × Bytes))
    (last : Moment) (state : Site.State) : List (Moment × Request) :=
  answeredAll site limits (deliver reads ++ [(last, .endOfInput)]) (start limits begin) state

theorem stopping_start (limits : Limits) (begin : Time) : (start limits begin).stopping = false :=
  stopping_await limits begin {}

theorem report_eq_of_arrivals_eq (site : Site) (limits : Limits) (begin : Time)
    {reads reads' : List (Moment × Bytes)} (hne : ∀ read ∈ reads, read.2 ≠ [])
    (hne' : ∀ read ∈ reads', read.2 ≠ []) (harrivals : arrivals reads = arrivals reads')
    (events : List (Moment × Event)) (state : Site.State) :
    report site limits (deliver reads ++ events) (start limits begin) state
      = report site limits (deliver reads' ++ events) (start limits begin) state := by
  have hrun := stopping_start limits begin
  rw [report_reads site limits hrun reads hne, report_reads site limits hrun reads' hne', harrivals]

/-- It cannot be told how the input of a connection was cut into reads.  If the same bytes arrive at
the same moments, the same requests go to the site at the same moments and leave the same cache
after the same visits to the provider.  The session sends the same bytes, has answered as many
requests and ends in the same way. -/
theorem run_eq_of_arrivals_eq (site : Site) (limits : Limits) (begin : Time)
    (reads reads' : List (Moment × Bytes)) (hne : ∀ read ∈ reads, read.2 ≠ [])
    (hne' : ∀ read ∈ reads', read.2 ≠ []) (harrivals : arrivals reads = arrivals reads')
    (last : Moment) (state : Site.State) :
    let r := run site limits begin reads last state
    let r' := run site limits begin reads' last state
    r.1.output = r'.1.output ∧ r.1.served = r'.1.served ∧ r.1.phase = r'.1.phase ∧
      r.2.visits = r'.2.visits ∧ r.2.cache = r'.2.cache ∧
      routed site limits begin reads last state = routed site limits begin reads' last state := by
  intro r r'
  have hreport := report_eq_of_arrivals_eq site limits begin hne hne' harrivals
    [(last, .endOfInput)] state
  have hsession : r.1.forget = r'.1.forget := congrArg Report.session hreport
  have hstate : r.2 = r'.2 := congrArg Report.state hreport
  refine ⟨?_, ?_, ?_, congrArg Site.State.visits hstate, congrArg Site.State.cache hstate,
    congrArg Report.answered hreport⟩
  · rw [← output_forget, hsession, output_forget]
  · rw [← served_forget, hsession, served_forget]
  · rw [← phase_forget, hsession, phase_forget]

/-- A request in two reads, cut within its first word or within its last four bytes. -/
theorem run_of_a_request_in_two_reads :
    let files : FileTree :=
      ⟨fun names => if names = ["f", "a"] then some (.file [104, 105]) else none, []⟩
    let site := Site.ofLibrary "/f" ⟨"/content"⟩ {} (fun _ => Codec.failing) files
    let limits : Limits := { readTimeout := 5, maxBody := 0 }
    let state : Site.State := { cache := ⟨4, []⟩ }
    let now : Moment := ⟨3, 0⟩
    let word : Bytes := [69, 84, 32, 47, 97, 32, 72, 84, 84, 80, 47, 49, 46, 49]
    let reads := [(now, [71]), (now, word ++ [13, 10, 13, 10])]
    let reads' := [(now, 71 :: word ++ [13, 10, 13]), (now, [10])]
    arrivals reads = arrivals reads' ∧
      (run site limits 0 reads now state).1.output
        = (run site limits 0 reads' now state).1.output := by
  intro files site limits state now word reads reads'
  have harrivals : arrivals reads = arrivals reads' := rfl
  have hne : ∀ read ∈ reads, read.2 ≠ [] := by simp [reads]
  have hne' : ∀ read ∈ reads', read.2 ≠ [] := by simp [reads']
  exact ⟨harrivals,
    (run_eq_of_arrivals_eq site limits 0 reads reads' hne hne' harrivals now state).1⟩

end ContentServer.Session
