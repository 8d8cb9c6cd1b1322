import ContentServer.Server
import Mathlib.Data.List.Basic

/-!
# The protocol of the console

The input of the console may be any bytes, and it has three ways to end: a `stop` line, a line that
is not UTF-8, and the end of the input.  The console *hears* the lines up to the first one of the
first two kinds.

* Each line that it hears is answered by what is found in the server at that time, and the answers
  are printed one after the other.
* The line behind them, if there is one, is the last that matters.  If it is a `stop` line, the
  server is asked to shut down and a notice is printed.  If it cannot be read, nothing more happens.
* A command may remove dead entries from the cache.  It changes nothing that the server can tell
  (`Scene.Keeps`).

What a line says is its text between the blanks at its ends (`word?`).  The proofs take one line at
a time: the first line ends the conversation (`converse_of_isLast`), or it is answered and the rest
of the conversation is one, too (`converse_of_heard`).
-/

namespace ContentServer.Console

/-! ## Cutting the input -/

/-- Bytes that are cut after each line feed.  The last line may lack it. -/
inductive IsCut : Bytes → List Bytes → Prop where
  /-- Nothing is left. -/
  | done : IsCut [] []
  /-- The last line has no line feed. -/
  | rest {line : Bytes} (hne : line ≠ []) (hfeed : 10 ∉ line) : IsCut line [line]
  /-- A line ends with the first line feed. -/
  | line {line rest : Bytes} {ls : List Bytes} (hfeed : 10 ∉ line) (h : IsCut rest ls) :
      IsCut (line ++ 10 :: rest) ((line ++ [10]) :: ls)

theorem lines_cons (b : UInt8) (input : Bytes) :
    lines (b :: input)
      = if b = 10 then [b] :: lines input else Text.consFirst b (lines input) := rfl

theorem isCut_lines (input : Bytes) : IsCut input (lines input) := by
  induction input with
  | nil => exact .done
  | cons b input ih =>
    rw [lines_cons]
    split
    · next hfeed =>
      subst hfeed
      exact (IsCut.line List.not_mem_nil ih : IsCut ([] ++ 10 :: input) _)
    · next hfeed =>
      have hfeed : ¬ 10 = b := fun h => hfeed h.symm
      generalize lines input = ls at ih ⊢
      cases ih with
      | done => exact .rest (List.cons_ne_nil b []) (by simpa using hfeed)
      | rest hne hline => exact .rest (List.cons_ne_nil b _) (by simp [hfeed, hline])
      | @line line rest ls hline h =>
        have hmem : 10 ∉ b :: line := by simp [hfeed, hline]
        exact (IsCut.line hmem h : IsCut ((b :: line) ++ 10 :: rest) _)

theorem lines_append {line : Bytes} (hfeed : 10 ∉ line) (rest : Bytes) :
    lines (line ++ 10 :: rest) = (line ++ [10]) :: lines rest := by
  induction line with
  | nil => rw [List.nil_append, lines_cons, if_pos rfl, List.nil_append]
  | cons b line ih =>
    rw [List.mem_cons, not_or] at hfeed
    rw [List.cons_append, lines_cons, if_neg fun h => hfeed.1 h.symm, ih hfeed.2]
    rfl

theorem lines_of_not_mem {line : Bytes} (hne : line ≠ []) (hfeed : 10 ∉ line) :
    lines line = [line] := by
  induction line with
  | nil => exact absurd rfl hne
  | cons b line ih =>
    rw [List.mem_cons, not_or] at hfeed
    rw [lines_cons, if_neg fun h => hfeed.1 h.symm]
    cases line with
    | nil => rfl
    | cons c line => rw [ih (List.cons_ne_nil c line) hfeed.2]; rfl

/-- There is one way to cut an input. -/
theorem isCut_iff {input : Bytes} {ls : List Bytes} : IsCut input ls ↔ ls = lines input := by
  refine ⟨fun h => ?_, fun h => h ▸ isCut_lines input⟩
  induction h with
  | done => rfl
  | @rest line hne hfeed => exact (lines_of_not_mem hne hfeed).symm
  | @line line rest ls hfeed h ih => rw [lines_append hfeed, ih]

/-! ## What a line says -/

/-- The text of a line between the blanks at its ends, if the line is text. -/
def word? (line : Bytes) : Option String :=
  (Bytes.text? line).map fun text => String.ofList (Text.trim text.toList)

/-- Whether a line ends the conversation. -/
def isLast (line : Bytes) : Bool := word? line == none || word? line == some "stop"

/-- What is printed for a line with some text. -/
def answer (scene : Scene) (word : String) : String :=
  if word = "" then ""
  else if word = "help" then helpBlock
  else if word = "status" then
    statusBlock scene.active (scene.cache.entries.countP (Cache.Entry.isLive scene.now))
  else unknownNotice word

/-- What is printed for a line that is heard. -/
def reply (scene : Scene) (line : Bytes) : String := ((word? line).map (answer scene)).getD ""

/-- What a line that is heard leaves.  Only the status looks into the server. -/
def Scene.after (line : Bytes) (scene : Scene) : Scene :=
  if word? line = some "status" then { scene with cache := scene.cache.sweep scene.now } else scene

theorem Scene.with_cache_after (line : Bytes) (scene : Scene) :
    { scene with cache := (scene.after line).cache } = scene.after line := by
  rw [after]
  split <;> rfl

/-- What a row of lines leaves. -/
def Scene.afterAll (meanwhile : Nat → Scene → Scene) : List Bytes → Scene → Scene
  | [], scene => scene
  | line :: rest, scene =>
    afterAll (fun i => meanwhile (i + 1)) rest ((meanwhile 0 scene).after line)

/-- What is printed for a row of lines that are heard, each in what it finds. -/
def printedFor (meanwhile : Nat → Scene → Scene) (ls : List Bytes) (scene : Scene) : String :=
  String.join (ls.mapIdx fun i line =>
    reply (meanwhile i (scene.afterAll meanwhile (ls.take i))) line)

/-- Nothing that the server can tell is different: the time, the number of connections, the room in
the cache, and what is live in it now or later. -/
structure Scene.Keeps (before after : Scene) : Prop where
  now : after.now = before.now
  active : after.active = before.active
  capacity : after.cache.capacity = before.cache.capacity
  live {time : Time} (h : before.now ≤ time) :
    after.cache.entries.filter (Cache.Entry.isLive time)
      = before.cache.entries.filter (Cache.Entry.isLive time)

variable {meanwhile : Nat → Scene → Scene} {scene : Scene} {line : Bytes} {ls : List Bytes}

theorem Scene.keeps_after (line : Bytes) (scene : Scene) : scene.Keeps (scene.after line) := by
  rw [after]
  split
  · refine ⟨rfl, rfl, rfl, fun {time} h => ?_⟩
    show (scene.cache.entries.filter (Cache.Entry.isLive scene.now)).filter _ = _
    rw [List.filter_filter]
    refine List.filter_congr fun e _ => ?_
    -- What is live later is live now.
    have hlater : e.isLive time = true → e.isLive scene.now = true := fun he =>
      decide_eq_true (Nat.lt_of_le_of_lt h (of_decide_eq_true he))
    cases hlive : e.isLive time with
    | true => rw [hlater hlive]; rfl
    | false => rfl
  · exact ⟨rfl, rfl, rfl, fun _ => rfl⟩

/-! ## One line -/

theorem word?_eq_of_text {text : String} (h : Bytes.text? line = some text) :
    word? line = some (String.ofList (Text.trim text.toList)) := by
  rw [word?, h]
  rfl

/-- A line that is not heard ends the conversation. -/
theorem converse_of_isLast (h : isLast line = true) (meanwhile : Nat → Scene → Scene)
    (rest : List Bytes) (scene : Scene) :
    converse meanwhile (line :: rest) scene
      = { printed := if word? line = some "stop" then stopNotice else ""
          stopped := decide (word? line = some "stop")
          scene := meanwhile 0 scene } := by
  rw [converse]
  cases htext : Bytes.text? line with
  | none =>
    have hword : word? line = none := by rw [word?, htext]; rfl
    rw [hword]
    rfl
  | some text =>
    have hword := word?_eq_of_text htext
    have hstop : String.ofList (Text.trim text.toList) = "stop" := by
      simpa [isLast, hword] using h
    rw [hstop] at hword
    have hcommand : Command.ofLine? text = some .stop := by
      rw [Command.ofLine?, hstop]
      rfl
    simp only [hcommand, hword, perform, if_true, decide_true]

/-- A line that is not blank and no `stop` is a command, which prints the answer to it. -/
theorem exists_command {text word : String} (hword : String.ofList (Text.trim text.toList) = word)
    (hline : word? line = some word) (hne : word ≠ "") (hgo : word ≠ "stop") :
    ∃ command, Command.ofLine? text = some command ∧ command ≠ .stop ∧
      ∀ scene : Scene, perform scene.now scene.active command scene.cache
        = (answer scene word, (scene.after line).cache) := by
  simp only [Command.ofLine?, hword, if_neg hne, if_neg hgo, answer, Scene.after, hline,
    Option.some.injEq]
  rcases eq_or_ne word "status" with rfl | hstatus
  · refine ⟨.status, rfl, Command.noConfusion, fun scene => ?_⟩
    rw [perform, Cache.size, Cache.sweep, List.countP_eq_length_filter]
    rfl
  · simp only [if_neg hstatus]
    rcases eq_or_ne word "help" with rfl | hhelp
    · exact ⟨.help, rfl, Command.noConfusion, fun _ => rfl⟩
    · simp only [if_neg hhelp]
      exact ⟨.unknown word, rfl, Command.noConfusion, fun _ => rfl⟩

/-- The conversation with something printed before. -/
def Conversation.prepend (printed : String) (c : Conversation) : Conversation :=
  { c with printed := printed ++ c.printed }

/-- A line that is heard is answered, and the conversation goes on. -/
theorem converse_of_heard (h : isLast line = false) (meanwhile : Nat → Scene → Scene)
    (rest : List Bytes) (scene : Scene) :
    converse meanwhile (line :: rest) scene
      = (converse (fun i => meanwhile (i + 1)) rest ((meanwhile 0 scene).after line)).prepend
          (reply (meanwhile 0 scene) line) := by
  rw [converse]
  generalize meanwhile 0 scene = found
  cases htext : Bytes.text? line with
  | none => simp [isLast, word?, htext] at h
  | some text =>
    have hline := word?_eq_of_text htext
    generalize hword : String.ofList (Text.trim text.toList) = word at hline
    have hgo : word ≠ "stop" := by simpa [isLast, hline] using h
    have hreply : reply found line = answer found word := by
      rw [reply, hline]
      rfl
    rcases eq_or_ne word "" with rfl | hne
    · have hafter : found.after line = found := by
        rw [Scene.after, hline]
        rfl
      have hblank : Command.ofLine? text = none := by
        rw [Command.ofLine?, hword]
        rfl
      simp only [hblank, hafter, hreply, Conversation.prepend]
      rw [answer, if_pos rfl, String.empty_append]
    · obtain ⟨command, hcommand, hnot, hperform⟩ := exists_command hword hline hne hgo
      simp only [hcommand, hperform, if_neg hnot, found.with_cache_after, hreply,
        Conversation.prepend]

/-! ## The whole conversation -/

/-- All that there is to say about a conversation. -/
theorem converse_eq (meanwhile : Nat → Scene → Scene) (ls : List Bytes) (scene : Scene) :
    let k := ls.findIdx isLast
    let stops := (ls[k]?.bind word?) = some "stop"
    converse meanwhile ls scene
      = { printed := printedFor meanwhile (ls.take k) scene ++ if stops then stopNotice else ""
          stopped := decide stops
          scene :=
            let left := scene.afterAll meanwhile (ls.take k)
            if k < ls.length then meanwhile k left else left } := by
  induction ls generalizing meanwhile scene with
  | nil => rfl
  | cons line ls ih =>
    cases hlast : isLast line with
    | true =>
      rw [converse_of_isLast hlast]
      simp [List.findIdx_cons, hlast, printedFor, Scene.afterAll]
    | false =>
      rw [converse_of_heard hlast, ih]
      simp [List.findIdx_cons, hlast, printedFor, Scene.afterAll, Conversation.prepend,
        List.mapIdx_cons, String.join_cons, String.append_assoc]

theorem stopped_converse_iff :
    (converse meanwhile ls scene).stopped = true ↔
      ∃ line, ls[ls.findIdx isLast]? = some line ∧ word? line = some "stop" := by
  rw [converse_eq, ← Option.bind_eq_some_iff]
  exact decide_eq_true_iff

theorem printed_converse (meanwhile : Nat → Scene → Scene) (ls : List Bytes) (scene : Scene) :
    (converse meanwhile ls scene).printed
      = printedFor meanwhile (ls.take (ls.findIdx isLast)) scene
        ++ if (converse meanwhile ls scene).stopped then stopNotice else "" := by
  simp only [converse_eq, decide_eq_true_eq]

theorem scene_converse (meanwhile : Nat → Scene → Scene) (ls : List Bytes) (scene : Scene) :
    let left := scene.afterAll meanwhile (ls.take (ls.findIdx isLast))
    (converse meanwhile ls scene).scene
      = if ls.findIdx isLast < ls.length then meanwhile (ls.findIdx isLast) left else left := by
  rw [converse_eq]

/-- What comes behind the last line that matters does not matter, nor what the server does then. -/
theorem converse_congr {meanwhile' : Nat → Scene → Scene} {others : List Bytes}
    (hmeanwhile : ∀ i ≤ ls.findIdx isLast, meanwhile' i = meanwhile i)
    (hlines : others.take (ls.findIdx isLast + 1) = ls.take (ls.findIdx isLast + 1)) :
    converse meanwhile' others scene = converse meanwhile ls scene := by
  induction ls generalizing meanwhile meanwhile' others scene with
  | nil =>
    cases others with
    | nil => rfl
    | cons line others => cases hlines
  | cons line ls ih =>
    have hzero := hmeanwhile 0 (Nat.zero_le _)
    cases others with
    | nil => cases hlines
    | cons line' others =>
      rw [List.take_succ_cons, List.take_succ_cons] at hlines
      obtain ⟨rfl, hlines⟩ := List.cons.inj hlines
      cases hlast : isLast line' with
      | true => rw [converse_of_isLast hlast, converse_of_isLast hlast, hzero]
      | false =>
        simp only [List.findIdx_cons, hlast, cond_false] at hmeanwhile hlines
        rw [converse_of_heard hlast, converse_of_heard hlast, hzero,
          ih (fun i hi => hmeanwhile (i + 1) (Nat.succ_le_succ hi)) hlines]

/-! ## A run at one moment -/

/-- A run of the console is a conversation in which the server does nothing between the lines. -/
theorem runLines_eq (ls : List Bytes) (scene : Scene) :
    let c := converse (fun _ => id) ls scene
    runLines scene.now scene.active ls scene.cache = ⟨c.printed, c.stopped, c.scene.cache⟩ := by
  induction ls generalizing scene with
  | nil => rfl
  | cons line ls ih =>
    rw [runLines, converse]
    cases Bytes.text? line with
    | none => rfl
    | some text =>
      cases hcommand : Command.ofLine? text with
      | none =>
        simp only [hcommand]
        exact ih scene
      | some command =>
        simp only [hcommand, id_eq]
        split
        · rfl
        · have hrest := ih { scene with
            cache := (perform scene.now scene.active command scene.cache).2 }
          rw [hrest]

theorem stopped_run_iff {now : Time} {active : Nat} {input : Bytes} {cache : Cache} :
    (run now active input cache).stopped = true ↔
      ∃ line, (lines input)[(lines input).findIdx isLast]? = some line ∧
        word? line = some "stop" := by
  rw [run, runLines_eq (lines input) ⟨now, active, cache⟩]
  exact stopped_converse_iff

theorem Scene.Keeps.refl (scene : Scene) : scene.Keeps scene := ⟨rfl, rfl, rfl, fun _ => rfl⟩

theorem Scene.Keeps.trans {before between after : Scene} (h : before.Keeps between)
    (h' : between.Keeps after) : before.Keeps after where
  now := h'.now.trans h.now
  active := h'.active.trans h.active
  capacity := h'.capacity.trans h.capacity
  live hle := (h'.live (h.now ▸ hle)).trans (h.live hle)

theorem Scene.keeps_afterAll (ls : List Bytes) (scene : Scene) :
    scene.Keeps (scene.afterAll (fun _ => id) ls) := by
  induction ls generalizing scene with
  | nil => exact .refl scene
  | cons line ls ih => exact (scene.keeps_after line).trans (ih _)

/-- Lines are answered as before when nothing else is live. -/
theorem Scene.Keeps.reply {before after : Scene} (h : before.Keeps after) (line : Bytes) :
    reply after line = reply before line := by
  have hlive : after.cache.entries.countP (Cache.Entry.isLive after.now)
      = before.cache.entries.countP (Cache.Entry.isLive before.now) := by
    rw [List.countP_eq_length_filter, List.countP_eq_length_filter, h.now,
      h.live (Nat.le_refl before.now)]
  have hanswer : answer after = answer before := by
    funext word
    rw [answer, answer, h.active, hlive]
  rw [Console.reply, Console.reply, hanswer]

theorem printedFor_id (ls : List Bytes) (scene : Scene) :
    printedFor (fun _ => id) ls scene = String.join (ls.map (reply scene)) := by
  have hreply : ∀ i line, reply (scene.afterAll (fun _ => id) (ls.take i)) line
      = reply scene line := fun i => (scene.keeps_afterAll (ls.take i)).reply
  refine congrArg String.join (List.ext_getElem (by simp) fun i _ _ => ?_)
  rw [List.getElem_mapIdx, List.getElem_map]
  exact hreply i _

/-! ## The server -/

theorem stopping_handleAt (now : Moment) (event : Session.Event) (i : Nat) (srv : Server) :
    (srv.handleAt now event i).stopping = srv.stopping := by
  rw [Server.handleAt]
  split <;> rfl

theorem stopping_handleEach (now : Moment) (event : Session.Event) (srv : Server) :
    (srv.handleEach now event).stopping = srv.stopping := by
  rw [Server.handleEach]
  generalize List.range srv.sessions.length = places
  induction places generalizing srv with
  | nil => rfl
  | cons i places ih => rw [List.foldl_cons, ih, stopping_handleAt]

/-- A run of the console makes the server stop if it says so, and otherwise leaves the sessions as
they are. -/
theorem console_cases (now : Moment) (input : Bytes) (srv : Server) :
    (run now.clock srv.active input srv.state.cache).stopped = true ∧
        (srv.console now input).2.stopping = true ∨
      (run now.clock srv.active input srv.state.cache).stopped = false ∧
        (srv.console now input).2.stopping = srv.stopping ∧
        (srv.console now input).2.active = srv.active := by
  rw [Server.console]
  dsimp only
  cases (run now.clock srv.active input srv.state.cache).stopped with
  | true =>
    refine Or.inl ⟨rfl, ?_⟩
    rw [if_pos rfl, Server.stop, stopping_handleEach]
  | false => exact Or.inr ⟨rfl, rfl, rfl⟩

/-- Whatever is typed and whatever the server does meanwhile, the console acts on the lines up to
the first one that is no text or a `stop`.  The lines before that one are answered in order with
what is found in the server at that time.  The server is asked to shut down exactly if there is such
a line and it is a `stop`, and then the notice of that is the last thing that is printed.  Nothing
behind that line has an effect, and no line changes what is live in the cache or the number of
connections. -/
theorem acts_up_to_last_line (meanwhile : Nat → Scene → Scene) (input : Bytes) (scene : Scene) :
    let ls := lines input
    let k := ls.findIdx isLast
    let stops := ∃ line, ls[k]? = some line ∧ word? line = some "stop"
    let c := converse meanwhile ls scene
    let left := scene.afterAll meanwhile (ls.take k)
    let o := run scene.now scene.active input scene.cache
    (∀ cut, IsCut input cut ↔ cut = ls) ∧
    ((c.stopped = true ↔ stops) ∧
      c.printed
        = printedFor meanwhile (ls.take k) scene ++ (if c.stopped then stopNotice else "") ∧
      c.scene = (if k < ls.length then meanwhile k left else left) ∧
      ∀ meanwhile' input', (∀ i ≤ k, meanwhile' i = meanwhile i) →
        (lines input').take (k + 1) = ls.take (k + 1) →
          converse meanwhile' (lines input') scene = c) ∧
    ((o.stopped = true ↔ stops) ∧
      o.printed = String.join ((ls.take k).map (reply scene)) ++
        (if o.stopped then stopNotice else "") ∧
      scene.Keeps { scene with cache := o.cache } ∧
      ∀ input', (lines input').take (k + 1) = ls.take (k + 1) →
        run scene.now scene.active input' scene.cache = o) ∧
    (∀ (line : Bytes) (found : Scene), found.Keeps (found.after line)) ∧
    ∀ (srv : Server) (now : Moment),
      let after := (srv.console now input).2
      (after.stopping = true ↔ srv.stopping = true ∨ stops) ∧
        (¬ stops → after.active = srv.active) := by
  intro ls k stops c left o
  have ho (input' : Bytes) := runLines_eq (lines input') scene
  have hkeeps : scene.Keeps (converse (fun _ => id) ls scene).scene := by
    rw [scene_converse, id_eq, ite_self]
    exact scene.keeps_afterAll (ls.take k)
  refine ⟨fun _ => isCut_iff, ⟨stopped_converse_iff, printed_converse meanwhile ls scene,
    scene_converse meanwhile ls scene, fun meanwhile' input' => converse_congr⟩,
    ⟨stopped_run_iff, ?_, ?_, fun input' hlines => ?_⟩, Scene.keeps_after, fun srv now => ?_⟩
  · rw [show o = _ from ho input, ← printedFor_id]
    exact printed_converse _ ls scene
  · rw [show o = _ from ho input]
    exact ⟨rfl, rfl, hkeeps.capacity, hkeeps.live⟩
  · refine (ho input').trans (Eq.trans ?_ (ho input).symm)
    rw [converse_congr (fun _ _ => rfl) hlines]
  · have hstops : (run now.clock srv.active input srv.state.cache).stopped = true ↔ stops :=
      stopped_run_iff
    rcases console_cases now input srv with ⟨hstopped, hstopping⟩ | ⟨hgoes, hsame, hactive⟩
    · have hstop := hstops.mp hstopped
      exact ⟨iff_of_true hstopping (Or.inr hstop), fun hno => absurd hstop hno⟩
    · have hno : ¬ stops := by rw [← hstops, hgoes]; exact Bool.false_ne_true
      refine ⟨?_, fun _ => hactive⟩
      rw [hsame]
      exact (or_iff_left hno).symm

end ContentServer.Console
