import ContentServer.Proofs.Http.Heads
import ContentServer.Proofs.Text.Trimming

/-!
# Options of a connection

The `Connection` fields of a head list options, and the options decide whether the connection stays
open.  Here they are read off the fields as these are written: cut at the commas, without blanks,
in lower case and without the empty ones.  `Head.Persistent` is the verdict on them, and a request
comes to the same one (`Head.keepAlive_request`).

The same options can be written in many ways.  `Rearranged` says in which: in another order, in one
field or in several, with other blanks, in another case, and with other fields in between.  Each of
these permutes the options at most (`Rearranged.options_perm`), and the order of options does not
matter to the verdict.
-/

namespace ContentServer

/-! ## Options of a field -/

namespace HeadField

/-- What a field lists between commas, without blanks around it and in lower case. -/
def pieces (f : HeadField) : List (List Char) :=
  ((List.splitOn ',' f.raw).map Text.trim).map Text.lower

/-- The options that a field lists. -/
def options (f : HeadField) : List (List Char) := f.pieces.filter (· ≠ [])

/-- The value of a field holds the options that the field lists. -/
theorem options_value (f : HeadField) : Field.options f.value = f.options.map String.ofList := by
  have hpieces : (List.splitOn ',' f.value).map (fun piece => Text.lower (Text.trim piece))
      = f.pieces := by
    rw [pieces, ← Text.map_trim_splitOn_trim (by decide), List.map_map]
    rfl
  rw [Field.options, hpieces, options]
  congr 2
  funext piece
  cases piece <;> rfl

/-- Letter case does not matter to the pieces. -/
theorem pieces_eq (f : HeadField) :
    f.pieces = (List.splitOn ',' (Text.lower f.raw)).map Text.trim := by
  rw [Text.lower, Text.splitOn_map Text.toLower_beq_comma, List.map_map, pieces, List.map_map]
  exact List.map_congr_left fun piece _ => Text.lower_trim piece

end HeadField

/-! ## The verdict on a head -/

namespace Head

/-- The options that some fields list. -/
def options (fields : List HeadField) : List (List Char) :=
  (named "connection" fields).flatMap HeadField.options

/-- A head after which the connection stays open: it does not ask to close it, and it is of version
1.1 or asks to keep it. -/
def Persistent (h : Head) : Prop :=
  "close".toList ∉ options h.fields ∧
    (h.version = .v11 ∨ "keep-alive".toList ∈ options h.fields)

instance (h : Head) : Decidable h.Persistent := inferInstanceAs (Decidable (_ ∧ _))

theorem connection_request (h : Head) :
    h.request.connection = (options h.fields).map String.ofList := by
  simp only [request, complete, List.nil_append, options, List.map_flatMap,
    HeadField.options_value]

theorem mem_connection_request (h : Head) (name : String) :
    name ∈ h.request.connection ↔ name.toList ∈ options h.fields := by
  rw [connection_request, List.mem_map]
  constructor
  · rintro ⟨option, hoption, rfl⟩
    rwa [String.toList_ofList]
  · intro hname
    exact ⟨name.toList, hname, String.ofList_toList⟩

/-- A request keeps the connection open iff its head does. -/
theorem keepAlive_request (h : Head) : h.request.keepAlive = true ↔ h.Persistent := by
  have hversion : h.request.version = h.version := rfl
  rw [Request.keepAlive, Persistent, Bool.and_eq_true, Bool.not_eq_true', ← Bool.not_eq_true,
    List.contains_iff_mem, mem_connection_request, hversion]
  refine and_congr_right fun _ => ?_
  cases h.version with
  | v11 => simp
  | v10 => simp [mem_connection_request]

end Head

/-! ## Writing the same options in other ways -/

/-- Two rows of fields that list the same options in two ways. -/
inductive Rearranged : List HeadField → List HeadField → Prop where
  | refl (fields : List HeadField) : Rearranged fields fields
  | symm {fields others : List HeadField} (h : Rearranged fields others) :
      Rearranged others fields
  | trans {fields between others : List HeadField} (h : Rearranged fields between)
      (h' : Rearranged between others) : Rearranged fields others
  /-- Parts of a row are rearranged by themselves. -/
  | append {front front' back back' : List HeadField} (hfront : Rearranged front front')
      (hback : Rearranged back back') : Rearranged (front ++ back) (front' ++ back')
  /-- The options of a field change places. -/
  | reorder {f g : HeadField} (hf : f.isNamed "connection" = true)
      (hg : g.isNamed "connection" = true)
      (h : (List.splitOn ',' f.raw).Perm (List.splitOn ',' g.raw)) : Rearranged [f] [g]
  /-- The blanks around the options change. -/
  | pad {f g : HeadField} (hf : f.isNamed "connection" = true)
      (hg : g.isNamed "connection" = true)
      (h : (List.splitOn ',' f.raw).map Text.trim = (List.splitOn ',' g.raw).map Text.trim) :
      Rearranged [f] [g]
  /-- Letters change their case. -/
  | recase {f g : HeadField} (hf : f.isNamed "connection" = true)
      (hg : g.isNamed "connection" = true) (h : Text.lower f.raw = Text.lower g.raw) :
      Rearranged [f] [g]
  /-- A field is divided at a comma.  With `symm`, two fields are put together. -/
  | divide {f first second : HeadField} (hf : f.isNamed "connection" = true)
      (hfirst : first.isNamed "connection" = true) (hsecond : second.isNamed "connection" = true)
      (h : f.raw = first.raw ++ ',' :: second.raw) : Rearranged [f] [first, second]
  /-- A field with options changes places with any other. -/
  | swap {f : HeadField} (hf : f.isNamed "connection" = true) (other : HeadField) :
      Rearranged [f, other] [other, f]

namespace Head

theorem options_append (front back : List HeadField) :
    options (front ++ back) = options front ++ options back := by
  rw [options, named, List.filter_append, List.flatMap_append, options, options, named, named]

theorem options_singleton {f : HeadField} (hf : f.isNamed "connection" = true) :
    options [f] = f.options := by
  rw [options, named, List.filter_cons_of_pos hf, List.filter_nil, List.flatMap_singleton]

end Head

open Head in
/-- Rearranging fields permutes their options at most. -/
theorem Rearranged.options_perm {fields others : List HeadField} (h : Rearranged fields others) :
    (options fields).Perm (options others) := by
  induction h with
  | refl fields => exact .refl _
  | symm _ ih => exact ih.symm
  | trans _ _ ih ih' => exact ih.trans ih'
  | append _ _ ihfront ihback =>
    rw [options_append, options_append]
    exact ihfront.append ihback
  | reorder hf hg h =>
    rw [options_singleton hf, options_singleton hg]
    exact ((h.map Text.trim).map Text.lower).filter _
  | pad hf hg h =>
    rw [options_singleton hf, options_singleton hg, HeadField.options, HeadField.options,
      HeadField.pieces, h, ← HeadField.pieces]
  | recase hf hg h =>
    rw [options_singleton hf, options_singleton hg, HeadField.options, HeadField.options,
      HeadField.pieces_eq, h, ← HeadField.pieces_eq]
  | @divide f first second hf hfirst hsecond h =>
    have hrow : options [first, second] = first.options ++ second.options := by
      rw [← options_singleton hfirst, ← options_singleton hsecond, ← options_append]
      rfl
    rw [options_singleton hf, hrow, HeadField.options, HeadField.pieces, h,
      List.splitOn_append_cons_self, List.map_append, List.map_append, List.filter_append]
    exact .refl _
  | @swap f hf other =>
    have hrow : ∀ g g' : HeadField, options [g, g'] = options [g] ++ options [g'] :=
      fun g g' => options_append [g] [g']
    rw [hrow, hrow]
    exact List.perm_append_comm

/-- The verdict on a head does not depend on how its options are written. -/
theorem Head.persistent_congr {h other : Head} (hversion : other.version = h.version)
    (hfields : Rearranged h.fields other.fields) : other.Persistent ↔ h.Persistent := by
  have hmem : ∀ option : List Char, option ∈ options other.fields ↔ option ∈ options h.fields :=
    fun option => hfields.options_perm.mem_iff.symm
  rw [Persistent, Persistent, hversion, hmem, hmem]

end ContentServer
