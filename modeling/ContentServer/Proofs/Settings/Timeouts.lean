import ContentServer.Proofs.Session.Replies
import ContentServer.Proofs.Toml.Numbers
import ContentServer.Settings.Document

/-!
# The read timeout and the clock

A session adds the read timeout to the time that the clock shows, and breaks down if the clock
cannot show the sum.  The clock can show less than 2⁶³ seconds, and a document can set a read
timeout of up to 2⁶³ - 1 seconds.  Nothing between the document and the session makes it shorter, so
there are settings with which no request is ever read.

In the first half of what the clock can show, a session is safe if the read timeout is not longer
than that half (`Clock.later?_of_lt_middle`), and a longer one is too long already in that half
(`Clock.later?_eq_none_of_long`).  Only the number in a document can be so long: the default and
every change are far below (`Settings.readTimeout_cases`, `Settings.readTimeout_changeAll`).
-/

namespace ContentServer

namespace Clock

/-! ## Sums that the clock can show -/

/-- The middle of the time that the clock can show. -/
def middle : Time := seconds (UInt64.size / 4)

theorem middle_add_middle : middle + middle = limit := by decide

theorem later?_eq_none_iff {now span : Time} : later? now span = none ↔ limit ≤ now + span := by
  rw [later?]
  split
  · next h => exact ⟨by rintro ⟨⟩, fun hle => absurd h (Nat.not_lt_of_le hle)⟩
  · next h => exact ⟨fun _ => Nat.le_of_not_lt h, fun _ => rfl⟩

theorem exists_later?_iff {now span : Time} :
    (∃ deadline, later? now span = some deadline) ↔ now + span < limit := by
  rw [← Option.isSome_iff_exists, ← Option.ne_none_iff_isSome, ne_eq, later?_eq_none_iff,
    Nat.not_le]

theorem seconds_le_middle_iff {n : Nat} : seconds n ≤ middle ↔ n ≤ UInt64.size / 4 := by
  rw [middle, seconds, seconds]
  exact Nat.mul_le_mul_right_iff (by decide)

/-- In the first half, the clock can show all sums with a number of seconds that is not longer than
that half. -/
theorem later?_of_lt_middle {now : Time} {n : Nat} (hnow : now < middle)
    (hn : n ≤ UInt64.size / 4) : ∃ deadline, later? now (seconds n) = some deadline := by
  refine exists_later?_iff.mpr ?_
  rw [← middle_add_middle]
  exact Nat.add_lt_add_of_lt_of_le hnow (seconds_le_middle_iff.mpr hn)

/-- A longer one leads past the end of the clock before the first half is over. -/
theorem later?_eq_none_of_long {n : Nat} (hn : UInt64.size / 4 < n) :
    later? (middle - 1) (seconds n) = none := by
  have hlong : middle + 1 ≤ seconds n :=
    Nat.lt_of_not_le (mt seconds_le_middle_iff.mp (Nat.not_le_of_lt hn))
  have hlimit : limit = middle - 1 + (middle + 1) := by decide
  rw [later?_eq_none_iff, hlimit]
  exact Nat.add_le_add_left hlong _

end Clock

namespace Session

variable {site : Site} {limits : Limits} {now : Moment} {s t : Session} {state after : Site.State}

/-! ## Sessions that break down -/

/-- Whether a session has broken down because the clock could not show its deadline. -/
def BrokeDown (s : Session) : Prop := s.phase = .ended .noDeadline

theorem start_of_no_deadline {begin : Time}
    (h : Clock.later? begin limits.readTimeout = none) :
    start limits begin = finish {} .noDeadline := by
  rw [start, await, h]

theorem not_brokeDown_receive (hs : ¬ s.BrokeDown) (now : Time) (event : Event) :
    ¬ (s.receive now event).BrokeDown := by
  cases hopen : s.isEnded with
  | true => rwa [receive_of_isEnded hopen]
  | false =>
    rcases Nat.lt_or_ge s.deadline now with hlate | hin
    · rw [receive_of_late hopen hlate]
      rintro ⟨⟩
    · rw [receive_of_inTime hopen fun _ => hin]
      cases event with
      | bytes data => exact hs
      | endOfInput =>
        dsimp only
        rcases hangUp_of_open hopen with h | h <;> rw [h] <;> rintro ⟨⟩
      | stop => exact hs
      | tick => exact hs

theorem not_brokeDown_settle {deadline : Time}
    (hlater : Clock.later? now.clock limits.readTimeout = some deadline) (hs : ¬ s.BrokeDown)
    (site : Site) (state : Site.State) : ¬ (settle site limits now s state).1.BrokeDown := by
  induction s, state using settle_induction site limits now with
  | waits s state h => rwa [settle_of_waits h]
  | step s state t after h ih =>
    rw [settle_of_step h]
    exact ih fun hbroke => h.not_ranOutOfTime hlater (Or.inr hbroke)

/-- A session does not break down if the clock can always show the deadline. -/
theorem not_brokeDown_handleAll {events : List (Moment × Event)}
    (hlater : ∀ event ∈ events,
      ∃ deadline, Clock.later? event.1.clock limits.readTimeout = some deadline)
    (hs : ¬ s.BrokeDown) (site : Site) (state : Site.State) :
    ¬ (handleAll site limits events s state).1.BrokeDown := by
  induction events generalizing s state with
  | nil => exact hs
  | cons first events ih =>
    obtain ⟨now, event⟩ := first
    obtain ⟨⟨deadline, hnow⟩, hrest⟩ := List.forall_mem_cons.mp hlater
    have hreceived := not_brokeDown_receive hs now.clock event
    exact ih hrest (not_brokeDown_settle hnow hreceived site state) _

/-- What a report has to say of a session that breaks down when it starts: nothing. -/
structure Report.IsBreakdown (state : Site.State) (r : Report) : Prop where
  session : r.session.BrokeDown
  output : r.session.output = []
  answered : r.answered = []
  state : r.state = state

theorem isBreakdown_report {begin : Time}
    (h : Clock.later? begin limits.readTimeout = none) (site : Site)
    (events : List (Moment × Event)) (state : Site.State) :
    (report site limits events (start limits begin) state).IsBreakdown state := by
  have hended : (finish {} .noDeadline).isEnded = true := rfl
  rw [start_of_no_deadline h, report_of_isEnded hended]
  exact ⟨rfl, rfl, rfl, rfl⟩

end Session

namespace Settings

/-! ## What the read timeout can be -/

theorem optional_eq_some_iff {α : Type} {fields : String → Option Toml.Value} {name : String}
    {read : Toml.Value → Option α} {default x : α} :
    optional fields name read default = some x ↔
      fields name = none ∧ default = x ∨ ∃ v, fields name = some v ∧ read v = some x := by
  rw [optional]
  cases fields name with
  | none => simp
  | some v => simp

/-- The read timeout is the default or a number in the document. -/
theorem readTimeout_cases {entries : Toml.Entries} {s : Settings}
    (h : ofEntries? entries = some s) :
    s.readTimeout = ({} : Settings).readTimeout ∨
      0 < s.readTimeout ∧ entries.lookup "read_timeout" = some (.integer s.readTimeout) := by
  simp only [ofEntries?, Option.bind_eq_bind, Option.bind_eq_some_iff] at h
  obtain ⟨n, hn, _, -, _, -, _, -, _, -, _, -, _, -, _, -, _, -, _, -, hs⟩ := h
  have hs : s.readTimeout = if n = 0 then ({} : Settings).readTimeout else n := by
    cases hs
    rfl
  rcases optional_eq_some_iff.mp hn with ⟨-, rfl⟩ | ⟨v, hv, hread⟩
  · exact Or.inl hs
  · obtain ⟨rfl, -⟩ := Toml.Value.natural?_eq_some_iff.mp hread
    by_cases hzero : n = 0
    · rw [if_pos hzero] at hs
      exact Or.inl hs
    · rw [if_neg hzero] at hs
      rw [hs]
      exact Or.inr ⟨Nat.pos_of_ne_zero hzero, hv⟩

/-- Changes leave the read timeout as it is, or make it a number of whole seconds in a span. -/
theorem readTimeout_changeAll (s : Settings) {changes : List Change} {bound : Nat}
    (hchanges : ∀ span, .readTimeout span ∈ changes → span < bound) :
    (s.changeAll changes).readTimeout = s.readTimeout ∧ (∀ span, .readTimeout span ∉ changes) ∨
      (s.changeAll changes).readTimeout ≤ max 1 (bound / 1000) := by
  induction changes generalizing s with
  | nil => exact Or.inl ⟨rfl, fun span h => by cases h⟩
  | cons c changes ih =>
    have hrest := fun span h => hchanges span (List.mem_cons_of_mem c h)
    show ((s.change c).changeAll changes).readTimeout = _ ∧ _ ∨
      ((s.change c).changeAll changes).readTimeout ≤ _
    rcases ih (s.change c) hrest with ⟨hsame, hnone⟩ | hle
    · rw [hsame]
      cases c with
      | readTimeout span =>
        have hspan := hchanges span List.mem_cons_self
        have hdiv : span / 1000 ≤ bound / 1000 := Nat.div_le_div_right (Nat.le_of_lt hspan)
        refine Or.inr ?_
        simp only [change]
        omega
      | _ =>
        refine Or.inl ⟨rfl, fun span hmem => ?_⟩
        rcases List.mem_cons.mp hmem with h | h
        · cases h
        · exact hnone span h
    · exact Or.inr hle

theorem readTimeout_pos_changeAll {s : Settings} (h : 0 < s.readTimeout) (changes : List Change) :
    0 < (s.changeAll changes).readTimeout := by
  induction changes generalizing s with
  | nil => exact h
  | cons c changes ih => exact ih (readTimeout_pos_change h c)

/-- The read timeout that a document sets is positive, and it fits into 64 bits with a sign. -/
theorem readTimeout_of_entries {document : String} {entries : Toml.Entries} {s : Settings}
    (hentries : Toml.entries? document = some entries) (hs : ofEntries? entries = some s) :
    0 < s.readTimeout ∧ s.readTimeout < UInt64.size / 2 := by
  rcases readTimeout_cases hs with hdefault | ⟨hpos, hnumber⟩
  · rw [hdefault]
    decide
  · exact ⟨hpos, Int.ofNat_lt.mp (Toml.entries?_fit hentries "read_timeout" _ hnumber _ rfl)⟩

/-- The settings that a document and some changes give, with spans of less than 2⁶⁴ milliseconds,
have a positive read timeout of less than 2⁶³ seconds.  If it is not above 2⁶² seconds, no session
breaks down in the first half of the time that the clock can show.  It is above that only if this
number stands in the document and no change sets another one, and then there is a moment in the
first half at which sessions that start break down, whatever arrives. -/
theorem breakdowns_of_document {document : String} {s : Settings}
    (hdocument : ofDocument? document = some s) (changes : List Change)
    (hchanges : ∀ span, .readTimeout span ∈ changes → span < UInt64.size) :
    let t := s.changeAll changes
    0 < t.readTimeout ∧ t.readTimeout < UInt64.size / 2 ∧
    (t.readTimeout ≤ UInt64.size / 4 →
      ∀ site begin events state, begin < Clock.middle →
        (∀ event ∈ events, event.1.clock < Clock.middle) →
          ¬ (Session.handleAll site t.limits events (Session.start t.limits begin)
            state).1.BrokeDown) ∧
    (UInt64.size / 4 < t.readTimeout →
      (∀ span, .readTimeout span ∉ changes) ∧
      (∃ entries, Toml.entries? document = some entries ∧
        entries.lookup "read_timeout" = some (.integer t.readTimeout)) ∧
      ∃ begin < Clock.middle, ∀ site events state,
        (Session.report site t.limits events (Session.start t.limits begin) state).IsBreakdown
          state) := by
  intro t
  obtain ⟨entries, hentries, hs⟩ := Option.bind_eq_some_iff.mp hdocument
  obtain ⟨hpos, hfit⟩ := readTimeout_of_entries hentries hs
  have hcases := readTimeout_changeAll s hchanges
  refine ⟨readTimeout_pos_changeAll hpos changes, ?_, ?_, ?_⟩
  · rcases hcases with ⟨hsame, -⟩ | hshort
    · exact lt_of_eq_of_lt hsame hfit
    · exact lt_of_le_of_lt hshort (by decide)
  · intro hle site begin events state hbegin hevents
    have hlater := fun event h => Clock.later?_of_lt_middle (hevents event h) hle
    refine Session.not_brokeDown_handleAll hlater ?_ site state
    obtain ⟨deadline, hstart⟩ := Clock.later?_of_lt_middle hbegin hle
    exact fun hbroke => Session.not_ranOutOfTime_await hstart {} (Or.inr hbroke)
  · intro hlong
    rcases hcases with ⟨hsame, hnone⟩ | hshort
    · have hsame : t.readTimeout = s.readTimeout := hsame
      refine ⟨hnone, ⟨entries, hentries, ?_⟩, Clock.middle - 1, by decide, fun site events state =>
        Session.isBreakdown_report (Clock.later?_eq_none_of_long hlong) site events state⟩
      rcases readTimeout_cases hs with hdefault | ⟨-, hnumber⟩
      · rw [hsame, hdefault] at hlong
        exact absurd hlong (by decide)
      · rw [hsame]
        exact hnumber
    · exact absurd hlong (Nat.not_lt_of_le (Nat.le_trans hshort (by decide)))

/-- The longest read timeout that a document can set is too long, and a change makes it short. -/
theorem breakdowns_of_longest_timeout :
    let document := "read_timeout = 9223372036854775807"
    let s : Settings := { readTimeout := 9223372036854775807 }
    let t := s.changeAll [.port 80, .readTimeout 18446744073709551615]
    ofDocument? document = some s ∧
    (∃ begin < Clock.middle, ∀ site events state,
      (Session.report site s.limits events (Session.start s.limits begin) state).IsBreakdown
        state) ∧
    ∀ site begin state, begin < Clock.middle →
      ¬ (Session.handleAll site t.limits [(⟨begin, 0⟩, .endOfInput)] (Session.start t.limits begin)
        state).1.BrokeDown := by
  have hdocument : ofDocument? "read_timeout = 9223372036854775807"
      = some { readTimeout := 9223372036854775807 } := by decide +kernel
  intro document s t
  obtain ⟨-, -, -, hlong⟩ := breakdowns_of_document hdocument [] (by rintro span ⟨⟩)
  obtain ⟨-, -, hsafe, -⟩ :=
    breakdowns_of_document hdocument [.port 80, .readTimeout 18446744073709551615] (by
      rintro span h
      simp only [List.mem_cons, List.not_mem_nil, or_false, reduceCtorEq, false_or,
        Change.readTimeout.injEq] at h
      rw [h]
      decide)
  refine ⟨hdocument, (hlong (by decide)).2.2, fun site begin state hbegin => ?_⟩
  refine hsafe (by decide) site begin _ state hbegin fun event h => ?_
  rw [List.mem_singleton.mp h]
  exact hbegin

/-- A document is accepted with which a session breaks down that starts when the clock shows one
second. -/
theorem breakdown_of_accepted_document :
    ∃ s, ofDocument? "read_timeout = 9223372036854775807" = some s ∧
      Clock.seconds 1 < Clock.middle ∧
      (Session.start s.limits (Clock.seconds 1)).BrokeDown :=
  ⟨{ readTimeout := 9223372036854775807 }, by decide +kernel, by decide, rfl⟩

end Settings

end ContentServer
