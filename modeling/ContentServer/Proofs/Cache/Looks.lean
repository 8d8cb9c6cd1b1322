import ContentServer.Proofs.Cache.KeyedMap

/-!
# Looking does not matter

A cache drops dead entries when it runs into them, so a look into it changes what is stored: `get`
may erase an entry, and `size` and `isEmpty` erase all dead ones.  Two caches of which one is
looked into more often differ from then on in what they hold and where it stands.  None of this
shows in what they answer.

The reason is that a look leaves the map of a cache as it is.  A run with more looks follows the
same map as the run without them (`Bindings.Run.drop_looks`), and the map leaves one answer open
only: whether the removal of an expired name still finds something (`Bindings.Run.agree`).
-/

namespace ContentServer.Cache

/-- A use of the cache that is meant to change nothing. -/
inductive Look where
  | get (key : String)
  | size
  | isEmpty
deriving DecidableEq, Repr

def Look.operation : Look → Operation
  | .get key => .get key
  | .size => .size
  | .isEmpty => .isEmpty

/-! ## Runs with more looks

A run with looks put in anywhere is a list of its own moves and of looks.  `ownMoves` are the moves
without the looks, `allMoves` the moves with them, and `ownAnswers` picks from the answers to all
moves those to its own. -/

def ownMoves (moves : List (Move ⊕ Look)) : List Move := moves.filterMap Sum.getLeft?

def allMoves (moves : List (Move ⊕ Look)) : List Move :=
  moves.map (Sum.elim id fun look => .use look.operation)

def ownAnswers : List (Move ⊕ Look) → List Answer → List Answer
  | .inl (.use _) :: moves, answer :: answers => answer :: ownAnswers moves answers
  | .inl (.pass _) :: moves, answers => ownAnswers moves answers
  | .inr _ :: moves, _ :: answers => ownAnswers moves answers
  | _, _ => []

/-- Two rows of answers to the same moves that differ at most where a name is removed that is bound
and has expired. -/
inductive Bindings.Agree (capacity : Nat) :
    Time → Bindings → List Move → List Answer → List Answer → Prop where
  | done {now : Time} {m : Bindings} : Agree capacity now m [] [] []
  | pass {now span : Time} {m : Bindings} {moves : List Move} {answers answers' : List Answer}
      (h : Agree capacity (now + span) m moves answers answers') :
      Agree capacity now m (.pass span :: moves) answers answers'
  | same {now : Time} {m : Bindings} {op : Operation} {moves : List Move} {answer : Answer}
      {answers answers' : List Answer}
      (h : Agree capacity now (m.after capacity now op) moves answers answers') :
      Agree capacity now m (.use op :: moves) (answer :: answers) (answer :: answers')
  | expired {now : Time} {m : Bindings} {key : String} {moves : List Move} {found found' : Bool}
      {answers answers' : List Answer} (hbound : key ∈ m) (hdead : m.isLive now key = false)
      (h : Agree capacity now (m.after capacity now (.remove key)) moves answers answers') :
      Agree capacity now m (.use (.remove key) :: moves) (.flag found :: answers)
        (.flag found' :: answers')

/-! ## What a map leaves open -/

variable {capacity : Nat} {now : Time} {m : Bindings}

theorem Bindings.after_look (look : Look) : m.after capacity now look.operation = m := by
  cases look <;> rfl

/-- Without the looks, a run still follows its map. -/
theorem Bindings.Run.drop_looks {moves : List (Move ⊕ Look)} {answers : List Answer}
    (h : Run capacity now m (allMoves moves) answers) :
    Run capacity now m (ownMoves moves) (ownAnswers moves answers) := by
  induction moves generalizing now m answers with
  | nil => exact .done
  | cons move moves ih =>
    cases move with
    | inl move =>
      cases h with
      | pass h => exact .pass (ih h)
      | use hallowed h => exact .use hallowed (ih h)
    | inr look =>
      cases h with
      | use hallowed h =>
        rw [after_look] at h
        exact ih h

/-- One answer is allowed, unless what is removed has expired. -/
theorem Bindings.Allows.eq_or_expired {op : Operation} {answer answer' : Answer}
    (h : m.Allows capacity now op answer) (h' : m.Allows capacity now op answer') :
    answer = answer' ∨
      ∃ key found found', op = .remove key ∧ answer = .flag found ∧ answer' = .flag found' ∧
        key ∈ m ∧ m.isLive now key = false := by
  cases op with
  | remove key =>
    obtain ⟨found, rfl, hlive, hbound⟩ := h
    obtain ⟨found', rfl, hlive', hbound'⟩ := h'
    cases hkey : m.isLive now key with
    | true => simp [hlive hkey, hlive' hkey]
    | false =>
      by_cases hsame : found = found'
      · simp [hsame]
      · right
        have hmem : key ∈ m := by
          cases found with
          | true => exact hbound rfl
          | false => exact hbound' (by simpa using hsame)
        exact ⟨key, found, found', rfl, rfl, rfl, hmem, hkey⟩
  | set key value life => exact Or.inl (h.trans h'.symm)
  | get key => exact Or.inl (h.trans h'.symm)
  | size => exact Or.inl (h.trans h'.symm)
  | isEmpty => exact Or.inl (h.trans h'.symm)
  | capacity => exact Or.inl (h.trans h'.symm)

/-- Rows of answers that follow the same map agree. -/
theorem Bindings.Run.agree {moves : List Move} {answers answers' : List Answer}
    (h : Run capacity now m moves answers) (h' : Run capacity now m moves answers') :
    Agree capacity now m moves answers answers' := by
  induction h generalizing answers' with
  | done => cases h'; exact .done
  | pass h ih =>
    cases h' with
    | pass h' => exact .pass (ih h')
  | use hallowed h ih =>
    cases h' with
    | use hallowed' h' =>
      rcases hallowed.eq_or_expired hallowed' with
        rfl | ⟨key, found, found', rfl, rfl, rfl, hbound, hdead⟩
      · exact .same (ih h')
      · exact .expired hbound hdead (ih h')

/-- Looks that are put into a run of a cache, any of them and anywhere, change none of its answers,
except that the removal of an expired name may find it or not. -/
theorem run_agree_allMoves (capacity : Nat) (now : Time) (moves : List (Move ⊕ Look)) :
    Bindings.Agree capacity now ∅ (ownMoves moves) (run now (ownMoves moves) ⟨capacity, []⟩)
      (ownAnswers moves (run now (allMoves moves) ⟨capacity, []⟩)) := by
  have hempty := Refines.empty now capacity
  have hown : Bindings.Run capacity now ∅ (ownMoves moves) _ := hempty.run (ownMoves moves)
  have hall : Bindings.Run capacity now ∅ (allMoves moves) _ := hempty.run (allMoves moves)
  exact hown.agree hall.drop_looks

/-- The removal of an expired name, without a look before it and with one. -/
example :
    let moves : List (Move ⊕ Look) := [.inl (.use (.set "a" "x" 1)),
      .inl (.pass (Clock.seconds 1)), .inr .size, .inl (.use (.remove "a"))]
    run 0 (ownMoves moves) ⟨1, []⟩ = [.flag true, .flag true] ∧
      ownAnswers moves (run 0 (allMoves moves) ⟨1, []⟩) = [.flag true, .flag false] := by
  decide

end ContentServer.Cache
