import ContentServer.Toml.Document

/-!
# Numbers in a settings document

A whole number in a settings document fits into 64 bits with a sign.  So the number that a field
of a document has is always less than 2⁶³, although the settings could hold twice as much
(`entries?_fit`).

The reader of whole numbers sees to that, and nothing that comes after it makes other numbers.  A
reader `Gives` only values with a property if the readers that it is made of do.  A table of the
document only gets values that have been read, tables, and rows of tables (`Entries.Fit.change`).
-/

namespace ContentServer.Toml

/-- Whether a value is no number that is too large.  What stands inside of it does not count. -/
def Value.Fits (v : Value) : Prop := ∀ n, v = .integer n → n < (UInt64.size / 2 : Nat)

theorem Value.natural?_eq_some_iff {bound n : Nat} {v : Value} :
    v.natural? bound = some n ↔ v = .integer n ∧ n < bound := by
  rw [Value.natural?.eq_def]
  split
  · next m =>
    simp only [Option.ite_none_right_eq_some, Bool.and_eq_true, decide_eq_true_iff,
      Option.some.injEq, Value.integer.injEq]
    omega
  · next hother =>
    constructor
    · rintro ⟨⟩
    · rintro ⟨rfl, -⟩
      exact absurd rfl (hother n)

namespace Reader

/-! ## What readers give -/

variable {α β : Type} {P : α → Prop} {Q : β → Prop} {p q : Reader α} {f : α → Reader β}

/-- Whether a reader only gives values with a property. -/
def Gives (P : α → Prop) (p : Reader α) : Prop := ∀ cs x rest, p cs = some (x, rest) → P x

theorem gives_pure {x : α} (h : P x) : Gives P (pure x) := by
  rintro cs _ _ ⟨⟩
  exact h

theorem gives_failure : Gives P failure := by
  rintro cs _ _ ⟨⟩

theorem Gives.bind (hp : Gives P p) (hf : ∀ x, P x → Gives Q (f x)) : Gives Q (p >>= f) := by
  intro cs y rest h
  obtain ⟨⟨x, left⟩, hx, hy⟩ := Option.bind_eq_some_iff.mp h
  exact hf x (hp cs x left hx) left y rest hy

theorem gives_bind (hf : ∀ x, Gives Q (f x)) : Gives Q (p >>= f) := by
  have hp : Gives (fun _ => True) p := fun _ _ _ _ => trivial
  exact hp.bind fun x _ => hf x

theorem Gives.orElse (hp : Gives P p) (hq : Gives P q) : Gives P (p <|> q) := by
  intro cs x rest h
  have h : (p cs <|> q cs) = some (x, rest) := h
  cases hleft : p cs with
  | some first =>
    rw [hleft] at h
    exact hp cs x rest (hleft.trans h)
  | none =>
    rw [hleft] at h
    exact hq cs x rest h

theorem Gives.atMost (hp : Gives P p) (n : Nat) : Gives (fun xs => ∀ x ∈ xs, P x) (atMost p n) := by
  induction n with
  | zero => exact gives_pure fun x h => nomatch h
  | succ n ih =>
    refine Gives.orElse (hp.bind fun x hx => ih.bind fun xs hxs => gives_pure ?_)
      (gives_pure fun x h => nomatch h)
    exact List.forall_mem_cons.mpr ⟨hx, hxs⟩

theorem Gives.many (hp : Gives P p) : Gives (fun xs => ∀ x ∈ xs, P x) (many p) :=
  fun cs => hp.atMost cs.length cs

/-! ## Whole numbers -/

theorem gives_signed (negative : Bool) (n : Nat) :
    Gives (fun n : Int => n < (UInt64.size / 2 : Nat)) (signed negative n) := by
  rw [signed]
  cases negative with
  | true =>
    by_cases hfit : n ≤ UInt64.size / 2
    · rw [if_pos rfl, if_pos hfit]
      refine gives_pure (Int.lt_of_le_of_lt (Int.neg_nonpos_of_nonneg (Int.natCast_nonneg n)) ?_)
      decide
    · rw [if_pos rfl, if_neg hfit]
      exact gives_failure
  | false =>
    by_cases hfit : n < UInt64.size / 2
    · rw [if_neg Bool.false_ne_true, if_pos hfit]
      exact gives_pure (Int.ofNat_lt.mpr hfit)
    · rw [if_neg Bool.false_ne_true, if_neg hfit]
      exact gives_failure

theorem gives_based (letter : Char) (base : Nat) :
    Gives (fun n : Int => n < (UInt64.size / 2 : Nat)) (based letter base) :=
  gives_bind fun _ => gives_bind fun _ => gives_signed false _

theorem gives_integer : Gives (fun n : Int => n < (UInt64.size / 2 : Nat)) integer :=
  (gives_based 'x' 16).orElse <| (gives_based 'o' 8).orElse <| (gives_based 'b' 2).orElse <|
    gives_bind fun negative => gives_bind fun _ => gives_signed negative _

/-! ## Values -/

theorem gives_scalar : Gives Value.Fits scalar := by
  refine Gives.orElse (gives_bind fun s => gives_pure ?_) <|
    Gives.orElse (gives_bind fun _ => gives_pure ?_) <|
    Gives.orElse (gives_bind fun _ => gives_pure ?_) <|
    Gives.orElse (gives_bind fun _ => gives_pure ?_) <|
    Gives.orElse (gives_bind fun _ => gives_pure ?_) <|
    gives_integer.bind fun n hn => gives_pure ?_
  · rintro n ⟨⟩
  · rintro n ⟨⟩
  · rintro n ⟨⟩
  · rintro n ⟨⟩
  · rintro n ⟨⟩
  · rintro m ⟨⟩
    exact hn

theorem gives_array (value : Reader Value) : Gives Value.Fits (array value) := by
  have hend : ∀ items, Gives Value.Fits (do filler; symbol ']'; return .array items) := fun items =>
    gives_bind fun _ => gives_bind fun _ => gives_pure (by rintro n ⟨⟩)
  refine gives_bind fun _ => gives_bind fun items => ?_
  split
  · exact gives_bind fun _ => hend items
  · exact hend items

theorem gives_bracedTable (value : Reader Value) : Gives Value.Fits (bracedTable value) := by
  refine gives_bind fun _ => gives_bind fun items => gives_bind fun _ => gives_bind fun _ => ?_
  split
  · exact gives_pure (by rintro n ⟨⟩)
  · exact gives_failure

theorem gives_value (n : Nat) : Gives Value.Fits (value n) := by
  cases n with
  | zero => exact gives_scalar
  | succ n => exact (gives_array _).orElse ((gives_bracedTable _).orElse gives_scalar)

end Reader

/-! ## Lines -/

/-- Whether the number on a line, if there is one, is not too large. -/
def Line.Fits (l : Line) : Prop := ∀ path key v, l = .entry path key v → v.Fits

namespace Reader

theorem gives_entry {value : Reader Value} (hvalue : Gives Value.Fits value) :
    Gives (fun e : (List String × String) × Value => e.2.Fits) (entry value) :=
  gives_bind fun _ => gives_bind fun _ => gives_bind fun _ => hvalue.bind fun _ hv => gives_pure hv

theorem gives_line : Gives Line.Fits line := by
  have hrowHeader : Gives Line.Fits rowHeader :=
    gives_bind fun _ => gives_bind fun _ => gives_bind fun _ => gives_pure (by rintro _ _ _ ⟨⟩)
  have hheader : Gives Line.Fits header :=
    gives_bind fun _ => gives_bind fun _ => gives_bind fun _ => gives_pure (by rintro _ _ _ ⟨⟩)
  have hblank : Gives Line.Fits
      ((do lineBreak; return .empty) <|> (do comment; lineEnd; return .empty)) :=
    Gives.orElse (gives_bind fun _ => gives_pure (by rintro _ _ _ ⟨⟩))
      (gives_bind fun _ => gives_bind fun _ => gives_pure (by rintro _ _ _ ⟨⟩))
  refine Gives.bind (P := Line.Fits)
    (Gives.orElse (Gives.bind (P := Line.Fits) (hrowHeader.orElse <| hheader.orElse <|
      (gives_entry (gives_value _)).bind fun e he => ?_) fun l hl => ?_) hblank) fun l hl => ?_
  · refine gives_pure ?_
    rintro path key v ⟨⟩
    exact he
  · exact gives_bind fun _ => gives_pure hl
  · exact gives_bind fun _ => gives_pure hl

theorem gives_lines : Gives (fun ls => ∀ l ∈ ls, l.Fits) lines :=
  gives_bind fun _ => gives_bind fun _ => gives_line.many.bind fun _ hls =>
    gives_bind fun _ => gives_pure hls

end Reader

/-! ## Entries -/

namespace Entries

variable {route : Route} {path : List String} {origin : Origin} {key : String} {v : Value}
variable {entries after : Entries}

/-- Whether no key stands for a number that is too large. -/
def Fit (entries : Entries) : Prop := ∀ key v, entries.lookup key = some v → v.Fits

theorem Fit.put (h : Fit entries) (hv : v.Fits) : Fit (put key v entries) := by
  intro other w hw
  by_cases hother : other = key
  · rw [hother, lookup_put_self] at hw
    cases hw
    exact hv
  · rw [lookup_put_of_ne hother] at hw
    exact h other w hw

/-- On the way to the table that is changed, only tables and rows of tables are put. -/
theorem Fit.change {f : Origin → Entries → Option Entries} (h : Fit entries)
    (hf : ∀ {origin entries after}, Fit entries → f origin entries = some after → Fit after)
    (hchange : change route f path origin entries = some after) : Fit after := by
  cases path with
  | nil => exact hf h hchange
  | cons name names =>
    rw [Entries.change] at hchange
    split at hchange
    · obtain ⟨inner, -, rfl⟩ := Option.map_eq_some_iff.mp hchange
      exact h.put (by rintro n ⟨⟩)
    · split at hchange
      · obtain ⟨inner, -, rfl⟩ := Option.map_eq_some_iff.mp hchange
        exact h.put (by rintro n ⟨⟩)
      · cases hchange
    · split at hchange
      · obtain ⟨inner, -, rfl⟩ := Option.map_eq_some_iff.mp hchange
        exact h.put (by rintro n ⟨⟩)
      · cases hchange
    · cases hchange

theorem Fit.add (h : Fit entries) (hv : v.Fits) (hadd : add key v entries = some after) :
    Fit after := by
  rw [Entries.add] at hadd
  split at hadd
  · cases hadd
    exact h.put hv
  · cases hadd

theorem Fit.insert (h : Fit entries) (hv : v.Fits)
    (hinsert : insert path key v entries = some after) : Fit after := by
  refine h.change (fun hinner hf => ?_) hinsert
  split at hf
  · exact hinner.add hv hf
  · cases hf

theorem Fit.insertAt {table : List String} (h : Fit entries) (hv : v.Fits)
    (hinsert : insertAt table path key v entries = some after) : Fit after :=
  h.change (fun hinner hf => hinner.insert hv hf) hinsert

theorem Fit.openTable (h : Fit entries) (hopen : openTable path key entries = some after) :
    Fit after := by
  refine h.change (fun hinner hf => ?_) hopen
  split at hf
  · cases hf
    exact hinner.put (by rintro n ⟨⟩)
  · cases hf
    exact hinner.put (by rintro n ⟨⟩)
  · cases hf

theorem Fit.openRow (h : Fit entries) (hopen : openRow path key entries = some after) :
    Fit after := by
  refine h.change (fun hinner hf => ?_) hopen
  split at hf
  · cases hf
    exact hinner.put (by rintro n ⟨⟩)
  · cases hf
    exact hinner.put (by rintro n ⟨⟩)
  · cases hf

end Entries

/-! ## Documents -/

theorem Draft.fit_extend {d after : Draft} {l : Line} (h : d.entries.Fit) (hl : l.Fits)
    (hextend : d.extend l = some after) : after.entries.Fit := by
  cases l with
  | empty =>
    cases hextend
    exact h
  | header path key =>
    obtain ⟨entries, hopen, rfl⟩ := Option.map_eq_some_iff.mp hextend
    exact h.openTable hopen
  | rowHeader path key =>
    obtain ⟨entries, hopen, rfl⟩ := Option.map_eq_some_iff.mp hextend
    exact h.openRow hopen
  | entry path key v =>
    obtain ⟨entries, hinsert, rfl⟩ := Option.map_eq_some_iff.mp hextend
    exact h.insertAt (hl path key v rfl) hinsert

theorem Draft.fit_extendAll {d after : Draft} {lines : List Line} (h : d.entries.Fit)
    (hlines : ∀ l ∈ lines, l.Fits) (hextend : lines.foldlM Draft.extend d = some after) :
    after.entries.Fit := by
  induction lines generalizing d with
  | nil =>
    cases hextend
    exact h
  | cons l lines ih =>
    obtain ⟨hl, hrest⟩ := List.forall_mem_cons.mp hlines
    rw [List.foldlM_cons] at hextend
    obtain ⟨next, hnext, hextend⟩ := Option.bind_eq_some_iff.mp hextend
    exact ih (Draft.fit_extend h hl hnext) hrest hextend

/-- Every number that stands in a document fits into 64 bits with a sign. -/
theorem entries?_fit {document : String} {entries : Entries}
    (h : entries? document = some entries) : entries.Fit := by
  rw [entries?] at h
  split at h
  · next lines rest hlines =>
    obtain ⟨draft, hdraft, rfl⟩ := Option.map_eq_some_iff.mp h
    have hnone : Entries.Fit [] := by rintro key v ⟨⟩
    exact Draft.fit_extendAll hnone (Reader.gives_lines _ lines rest hlines) hdraft
  · cases h

end ContentServer.Toml
