import ContentServer.Proofs.Http.Heads
import ContentServer.Proofs.Settings.Timeouts

/-!
# Where a setting comes from

There are three sources of a setting: the default, the document, and the changes that are made
afterwards.  They are taken in this order, and the last one that has a valid value wins.

* A document is accepted only if all fields that it has can be read.  A read timeout of 0 seconds
  stands for 30 seconds, and 0 threads for one for each processor.
* A change sets the fields that `Change.sets?` names and no other ones (`value_change`).  A port in
  an environment that is no port sets nothing, and the rest of that environment counts all the same.

The settings have ten fields, and most of what is true of them is true of all of them.  So there is
one statement about a `Field`, with the values that it can have, the reader of its value in a
document and what becomes of that value.  Only the read timeout and the number of threads have a
rule of their own (`Field.normal`).
-/

namespace ContentServer

namespace Settings

/-! ## Fields -/

/-- A field of the settings. -/
inductive Field where
  | docRoot
  | contentRoot
  | port
  | isLocal
  | workers
  | cacheSize
  | readTimeout
  | shutdownTimeout
  | maxBody
  | rules
deriving DecidableEq, Repr

namespace Field

/-- What a field can hold. -/
abbrev Value : Field → Type
  | docRoot => String
  | contentRoot => String
  | port => UInt16
  | isLocal => Bool
  | workers => Nat
  | cacheSize => Nat
  | readTimeout => Nat
  | shutdownTimeout => Nat
  | maxBody => Nat
  | rules => Rules

/-- What the settings say on a machine with a number of processors. -/
def value (processors : Nat) : (f : Field) → Settings → f.Value
  | docRoot, s => s.docRoot
  | contentRoot, s => s.contentRoot
  | port, s => s.port
  | isLocal, s => s.isLocal
  | workers, s => s.workerThreads processors
  | cacheSize, s => s.cacheSize
  | readTimeout, s => s.readTimeout
  | shutdownTimeout, s => s.shutdownTimeout
  | maxBody, s => s.maxBody
  | rules, s => s.rules

/-- The name of a field in a document. -/
def name : Field → String
  | docRoot => "doc_root"
  | contentRoot => "content_root"
  | port => "port"
  | isLocal => "local"
  | workers => "worker_threads"
  | cacheSize => "cache_size"
  | readTimeout => "read_timeout"
  | shutdownTimeout => "shutdown_timeout"
  | maxBody => "max_body_size"
  | rules => "routing"

/-- The reader of a field in a document. -/
def read : (f : Field) → Toml.Value → Option f.Value
  | docRoot => Toml.Value.text?
  | contentRoot => Toml.Value.text?
  | port => fun v => (v.natural? UInt16.size).map UInt16.ofNat
  | isLocal => Toml.Value.boolean?
  | workers => Toml.Value.natural? numberBound
  | cacheSize => Toml.Value.natural? numberBound
  | readTimeout => Toml.Value.natural? numberBound
  | shutdownTimeout => Toml.Value.natural? numberBound
  | maxBody => Toml.Value.natural? numberBound
  | rules => rules?

/-- What a value in a document stands for. -/
def normal (processors : Nat) : (f : Field) → f.Value → f.Value
  | workers, n => if n = 0 then max 1 processors else n
  | readTimeout, n => if n = 0 then 30 else n
  | _, x => x

end Field

/-! ## Changes -/

/-- The value that a change sets a field to, if it sets the field and the value is valid. -/
def Change.sets? : Change → (f : Field) → Option f.Value
  | .environment e, .docRoot => e.docRoot
  | .environment e, .contentRoot => e.contentRoot
  | .environment e, .port => e.port.bind port?
  | .docRoot path, .docRoot => some path
  | .port n, .port => some n
  | .isLocal b, .isLocal => some b
  | .readTimeout span, .readTimeout => some (max 1 (span / 1000))
  | .shutdownTimeout span, .shutdownTimeout => some (span / 1000)
  | .cacheSize n, .cacheSize => some n
  | .maxBody n, .maxBody => some n
  | .rules r, .rules => some r
  | _, _ => none

/-- A change sets some fields and leaves the others as they are. -/
theorem value_change (processors : Nat) (s : Settings) (c : Change) (f : Field) :
    f.value processors (s.change c) = (c.sets? f).getD (f.value processors s) := by
  cases c <;> cases f <;> rfl

/-! ## Sources -/

/-- What settings are before they are changed. -/
inductive Origin where
  /-- The defaults. -/
  | defaults
  /-- What a document says. -/
  | document (text : String)
deriving DecidableEq, Repr

/-- The settings before they are changed, unless they are those of a document that is refused. -/
def Origin.settings? : Origin → Option Settings
  | .defaults => some {}
  | .document text => ofDocument? text

/-- What stands in the document under a name. -/
def Origin.field? (name : String) : Origin → Option Toml.Value
  | .defaults => none
  | .document text => (Toml.entries? text).bind fun entries => entries.lookup name

/-- The value that a field has because of its last valid source. -/
inductive Source (processors : Nat) (origin : Origin) (changes : List Change) (f : Field) :
    f.Value → Prop where
  /-- A change sets the field, and none behind it does. -/
  | change {before after : List Change} {c : Change} {x : f.Value}
      (hchanges : changes = before ++ c :: after) (hset : c.sets? f = some x)
      (hafter : ∀ d ∈ after, d.sets? f = none) : Source processors origin changes f x
  /-- The document has the field, and no change sets it. -/
  | document {v : Toml.Value} {x : f.Value} (hunset : ∀ c ∈ changes, c.sets? f = none)
      (hfield : origin.field? f.name = some v) (hread : f.read v = some x) :
      Source processors origin changes f (f.normal processors x)
  /-- Neither the document nor a change has it. -/
  | default (hunset : ∀ c ∈ changes, c.sets? f = none) (hfield : origin.field? f.name = none) :
      Source processors origin changes f (f.value processors {})

variable {processors : Nat} {origin : Origin} {changes : List Change} {f : Field} {s : Settings}

theorem Source.of_optional {α : Type} {read : Toml.Value → Option α} {default n : α}
    (out : α → f.Value)
    (hread : optional (fun name => origin.field? name) f.name read default = some n)
    (hdefault : out default = f.value processors {})
    (hnormal : ∀ v, read v = some n → ∃ x, f.read v = some x ∧ f.normal processors x = out n) :
    Source processors origin [] f (out n) := by
  rcases optional_eq_some_iff.mp hread with ⟨hfield, rfl⟩ | ⟨v, hfield, hv⟩
  · rw [hdefault]
    exact .default (List.forall_mem_nil _) hfield
  · obtain ⟨x, hx, hout⟩ := hnormal v hv
    rw [← hout]
    exact .document (List.forall_mem_nil _) hfield hx

/-- A field of an accepted document can be read, or it is left out. -/
theorem source_document {text : String} (h : ofDocument? text = some s) (f : Field) :
    Source processors (.document text) [] f (f.value processors s) := by
  obtain ⟨entries, hentries, hs⟩ := Option.bind_eq_some_iff.mp h
  have hfields : (fun name => entries.lookup name)
      = fun name => (Origin.document text).field? name := by
    funext name
    rw [Origin.field?, hentries]
    rfl
  simp only [ofEntries?, Option.bind_eq_bind, Option.bind_eq_some_iff, hfields] at hs
  obtain ⟨readTimeout, hreadTimeout, docRoot, hdocRoot, contentRoot, hcontentRoot, port, hport,
    isLocal, hisLocal, workers, hworkers, cacheSize, hcacheSize, shutdownTimeout,
    hshutdownTimeout, maxBody, hmaxBody, rules, hrules, hs⟩ := hs
  cases hs
  cases f with
  | docRoot => exact .of_optional id hdocRoot rfl fun v hv => ⟨docRoot, hv, rfl⟩
  | contentRoot =>
    exact .of_optional id hcontentRoot rfl fun v hv => ⟨contentRoot, hv, rfl⟩
  | port =>
    exact .of_optional (f := .port) UInt16.ofNat hport rfl fun v hv =>
      ⟨UInt16.ofNat port, congrArg (Option.map UInt16.ofNat) hv, rfl⟩
  | isLocal => exact .of_optional id hisLocal rfl fun v hv => ⟨isLocal, hv, rfl⟩
  | workers =>
    exact .of_optional (Field.normal processors .workers) hworkers rfl fun v hv =>
      ⟨workers, hv, rfl⟩
  | cacheSize => exact .of_optional id hcacheSize rfl fun v hv => ⟨cacheSize, hv, rfl⟩
  | readTimeout =>
    exact .of_optional (Field.normal processors .readTimeout) hreadTimeout rfl fun v hv =>
      ⟨readTimeout, hv, rfl⟩
  | shutdownTimeout =>
    exact .of_optional id hshutdownTimeout rfl fun v hv => ⟨shutdownTimeout, hv, rfl⟩
  | maxBody => exact .of_optional id hmaxBody rfl fun v hv => ⟨maxBody, hv, rfl⟩
  | rules => exact .of_optional id hrules rfl fun v hv => ⟨rules, hv, rfl⟩

theorem source_start (h : origin.settings? = some s) (f : Field) :
    Source processors origin [] f (f.value processors s) := by
  cases origin with
  | defaults =>
    cases h
    exact .default (List.forall_mem_nil _) rfl
  | document text => exact source_document h f

/-- One more change is the source of the fields that it sets, and the others have the same source as
before. -/
theorem Source.step {x : f.Value} (h : Source processors origin changes f x) (c : Change) :
    Source processors origin (changes ++ [c]) f ((c.sets? f).getD x) := by
  cases hset : c.sets? f with
  | some y => exact .change rfl hset (List.forall_mem_nil _)
  | none =>
    have hlast : ∀ {row : List Change}, (∀ d ∈ row, d.sets? f = none) →
        ∀ d ∈ row ++ [c], d.sets? f = none := by
      intro row hrow
      rw [List.forall_mem_append]
      exact ⟨hrow, List.forall_mem_singleton.mpr hset⟩
    rw [Option.getD_none]
    cases h with
    | @change before after d _ hchanges hset' hafter =>
      have hmore : changes ++ [c] = before ++ d :: (after ++ [c]) := by
        rw [hchanges, List.append_assoc, List.cons_append]
      exact .change hmore hset' (hlast hafter)
    | document hunset hfield hread => exact .document (hlast hunset) hfield hread
    | default hunset hfield => exact .default (hlast hunset) hfield

/-- Whatever changes are made in whatever order, every field has the value of its last source. -/
theorem source_changeAll (h : origin.settings? = some s) (changes : List Change) (f : Field) :
    Source processors origin changes f (f.value processors (s.changeAll changes)) := by
  induction changes using List.reverseRecOn with
  | nil => exact source_start h f
  | append_singleton changes c ih =>
    rw [changeAll, List.foldl_append]
    exact value_change processors _ c f ▸ ih.step c

theorem value_changeAll_of_unset (processors : Nat) (s : Settings)
    (hunset : ∀ c ∈ changes, c.sets? f = none) :
    f.value processors (s.changeAll changes) = f.value processors s := by
  induction changes generalizing s with
  | nil => rfl
  | cons c changes ih =>
    rw [List.forall_mem_cons] at hunset
    refine (ih (s.change c) hunset.2).trans ?_
    rw [value_change, hunset.1, Option.getD_none]

theorem Source.unique_of_nil {x y : f.Value} (hx : Source processors origin [] f x)
    (hy : Source processors origin [] f y) : x = y := by
  cases hx with
  | change hchanges => simp at hchanges
  | document _ hfield hread =>
    cases hy with
    | change hchanges => simp at hchanges
    | document _ hfield' hread' =>
      cases hfield.symm.trans hfield'
      cases hread.symm.trans hread'
      rfl
    | default _ hfield' => cases hfield.symm.trans hfield'
  | default _ hfield =>
    cases hy with
    | change hchanges => simp at hchanges
    | document _ hfield' => cases hfield.symm.trans hfield'
    | default => rfl

/-- The value that a field has is the only one that it has because of a source. -/
theorem source_iff (h : origin.settings? = some s) {x : f.Value} :
    Source processors origin changes f x ↔ x = f.value processors (s.changeAll changes) := by
  refine ⟨fun hx => ?_, fun hx => hx ▸ source_changeAll h changes f⟩
  cases hx with
  | change hchanges hset hafter =>
    rw [hchanges, changeAll, List.foldl_append, List.foldl_cons]
    refine .trans ?_ (value_changeAll_of_unset processors _ hafter).symm
    rw [value_change, hset, Option.getD_some]
  | document hunset hfield hread =>
    rw [value_changeAll_of_unset processors s hunset]
    exact Source.unique_of_nil (.document (List.forall_mem_nil _) hfield hread) (source_start h f)
  | default hunset hfield =>
    rw [value_changeAll_of_unset processors s hunset]
    exact Source.unique_of_nil (.default (List.forall_mem_nil _) hfield) (source_start h f)

/-! ## Numbers that are never 0 -/

theorem Origin.readTimeout_pos (h : origin.settings? = some s) : 0 < s.readTimeout := by
  cases origin with
  | defaults =>
    cases h
    exact (by decide : 0 < 30)
  | document text =>
    obtain ⟨entries, hentries, hs⟩ := Option.bind_eq_some_iff.mp h
    exact (readTimeout_of_entries hentries hs).1

theorem workerThreads_pos (s : Settings) (processors : Nat) : 1 ≤ s.workerThreads processors := by
  rw [workerThreads]
  split
  · exact Nat.le_max_left 1 processors
  · next h => exact Nat.pos_of_ne_zero h

/-- A text is a port if it is a decimal number below 2¹⁶, with at most one plus sign in front. -/
theorem port?_eq_some_iff {text : String} {n : UInt16} :
    port? text = some n ↔
      ∃ digits, (text.toList = digits ∨ text.toList = '+' :: digits) ∧ digits ≠ [] ∧
        (∀ c ∈ digits, c.isDigit = true) ∧ Nat.ofDigitChars 10 digits 0 = n.toNat := by
  simp only [port?, Text.natural?, Option.map_eq_some_iff, Option.filter_eq_some_iff,
    Text.digits?_eq_some_iff, decide_eq_true_eq]
  constructor
  · rintro ⟨m, ⟨⟨hne, hdigits, hm⟩, hlt⟩, rfl⟩
    refine ⟨_, ?_, hne, hdigits, ?_⟩
    · split
      · next hplus =>
        obtain ⟨cs, hcs⟩ := List.head?_eq_some_iff.mp hplus
        rw [hcs]
        exact Or.inr rfl
      · exact Or.inl rfl
    · rw [hm, UInt16.toNat_ofNat_of_lt' hlt]
  · rintro ⟨digits, htext, hne, hdigits, hn⟩
    have hread : (if text.toList.head? = some '+' then text.toList.tail else text.toList)
        = digits := by
      rcases htext with htext | htext
      · rw [htext, if_neg]
        intro hplus
        obtain ⟨cs, hcs⟩ := List.head?_eq_some_iff.mp hplus
        have hdigit := hdigits '+' (hcs ▸ List.mem_cons_self)
        cases hdigit
      · rw [htext]
        rfl
    rw [hread]
    exact ⟨n.toNat, ⟨⟨hne, hdigits, hn⟩, n.toNat_lt⟩, UInt16.ofNat_toNat⟩

/-- Whether the settings start from the defaults or from a document that is accepted, and whatever
changes are made to them in whatever order, a request has at least a second to arrive, there is at
least one thread, and each field has the value of its last valid source.  A further change sets its
own fields and no other ones. -/
theorem last_source_wins (processors : Nat) (origin : Origin) (s : Settings)
    (h : origin.settings? = some s) (changes : List Change) :
    let t := s.changeAll changes
    1 ≤ t.readTimeout ∧ Clock.seconds 1 ≤ t.limits.readTimeout ∧ 1 ≤ t.workerThreads processors ∧
    (∀ (f : Field) (x : f.Value),
      Source processors origin changes f x ↔ x = f.value processors t) ∧
    (∀ (c : Change) (f : Field),
      f.value processors (t.change c) = (c.sets? f).getD (f.value processors t)) ∧
    ∀ (text : String) (n : UInt16), port? text = some n ↔
      ∃ digits, (text.toList = digits ∨ text.toList = '+' :: digits) ∧ digits ≠ [] ∧
        (∀ c ∈ digits, c.isDigit = true) ∧ Nat.ofDigitChars 10 digits 0 = n.toNat := by
  intro t
  have hpos : 1 ≤ t.readTimeout :=
    readTimeout_pos_changeAll (Origin.readTimeout_pos h) changes
  refine ⟨hpos, Nat.mul_le_mul_right _ hpos, t.workerThreads_pos processors,
    fun f x => source_iff h, value_change processors t, fun text n => port?_eq_some_iff⟩

/-- A document with a read timeout of 0 is accepted, and an environment with a port that is none
sets the document root. -/
theorem last_source_of_bad_port :
    let origin := Origin.document "read_timeout = 0\nport = 80"
    let changes := [Change.environment { docRoot := some "d", port := some "http" }]
    ∃ s, origin.settings? = some s ∧
      (s.changeAll changes).readTimeout = 30 ∧ (s.changeAll changes).port = 80 ∧
      (s.changeAll changes).docRoot = "d" := by
  intro origin changes
  have h : origin.settings? = some { port := 80 } := by decide +kernel
  have hzero : (origin.field? "read_timeout").bind (Toml.Value.natural? numberBound) = some 0 := by
    decide +kernel
  have hport : (origin.field? "port").bind (Toml.Value.natural? UInt16.size) = some 80 := by
    decide +kernel
  obtain ⟨_, hzero, hreadZero⟩ := Option.bind_eq_some_iff.mp hzero
  obtain ⟨_, hport, hreadPort⟩ := Option.bind_eq_some_iff.mp hport
  obtain ⟨-, -, -, hsource, -⟩ := last_source_wins 4 origin { port := 80 } h changes
  have hunset {f : Field} (hf : f = .readTimeout ∨ f = .port) :
      ∀ c ∈ changes, c.sets? f = none := by
    intro c hc
    rw [List.mem_singleton.mp hc]
    rcases hf with rfl | rfl <;> rfl
  refine ⟨{ port := 80 }, h, ?_, ?_, ?_⟩
  · exact ((hsource .readTimeout _).mp (.document (hunset (Or.inl rfl)) hzero hreadZero)).symm
  · have hreadPort := congrArg (Option.map UInt16.ofNat) hreadPort
    exact ((hsource .port _).mp (.document (hunset (Or.inr rfl)) hport hreadPort)).symm
  · have honly : changes = [] ++ _ :: [] := rfl
    exact ((hsource .docRoot "d").mp (.change honly rfl (List.forall_mem_nil _))).symm

end Settings

end ContentServer
