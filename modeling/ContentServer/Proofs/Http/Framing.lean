import ContentServer.Http.Response
import ContentServer.Proofs.Http.Heads

/-!
# Responses on the wire

A client gets its responses as one stream of bytes and has to find out where each of them ends.
`Reply.take?` does that for the first one.  The head ends with the first empty line, and its one
`Content-Length` says how long the body is, unless the request was a `HEAD`.  `Reply.cut` goes on
until nothing is left.

A response is `Framed` if a client that knows the method of its request reads it off the wire.  For
this no line of the head may have a line end inside, and the announced length must be the length of
what follows.  `cut_framed` says that a client gets the responses that were written, one after the
other, and then goes on with what comes after them.
-/

namespace ContentServer

open Text (lineEnd lineEndBytes after)

/-! ## What a client reads -/

/-- A response as a client reads it. -/
structure Reply where
  /-- The head, with the empty line that ends it. -/
  head : Bytes
  body : Bytes
deriving DecidableEq, Repr

namespace Reply

/-- The lines of a head. -/
def linesOf (head : Bytes) : List (List Char) :=
  match Bytes.text? head with
  | none => []
  | some text => Text.splitLines text.toList

/-- The length that a head announces, if it announces exactly one. -/
def announced? (head : Bytes) : Option Nat :=
  match ((linesOf head).tail.filterMap Field.ofLine?).filter
      fun field => FieldName.ofText field.name = .contentLength with
  | [field] => Text.digits? field.value
  | _ => none

/-- The length of the body that follows a head.  A reply to `HEAD` has none. -/
def bodyLength? (method : Option Method) (head : Bytes) : Option Nat :=
  (announced? head).map fun n => if method = some .head then 0 else n

/-- The first reply of a stream and what comes after it. -/
def take? (method : Option Method) (stream : Bytes) : Option (Reply × Bytes) :=
  match Text.firstIndex? Request.headEnd stream with
  | none => none
  | some i =>
    let head := stream.take (i + Request.headEnd.length)
    let rest := stream.drop (i + Request.headEnd.length)
    match bodyLength? method head with
    | none => none
    | some n =>
      if n ≤ rest.length then some (⟨head, rest.take n⟩, rest.drop n) else none

/-- A reply is taken off the front of the stream, and it is not empty. -/
theorem stream_of_take? {method : Option Method} {stream rest : Bytes} {reply : Reply}
    (h : take? method stream = some (reply, rest)) :
    stream = reply.head ++ reply.body ++ rest ∧ rest.length < stream.length := by
  rw [take?] at h
  split at h
  · cases h
  · next i hi =>
    have hfit := Text.firstIndex?_add_length_le hi
    have hend : Request.headEnd.length = 4 := rfl
    dsimp only at h
    split at h
    · cases h
    · split at h
      · cases h
        constructor
        · rw [List.append_assoc, List.take_append_drop, List.take_append_drop]
        · rw [List.length_drop, List.length_drop]
          omega
      · cases h

/-- The replies that a stream consists of, for the methods of the requests.  Where there is no
request a reply has its body. -/
def cut (methods : List Method) (stream : Bytes) : Option (List Reply) :=
  if stream = [] then some []
  else
    match _h : take? methods.head? stream with
    | none => none
    | some (reply, rest) => (cut methods.tail rest).map (reply :: ·)
termination_by stream.length
decreasing_by exact (stream_of_take? _h).2

theorem cut_nil (methods : List Method) : cut methods [] = some [] := by
  rw [cut, if_pos rfl]

theorem cut_of_take? {methods : List Method} {stream rest : Bytes} {reply : Reply}
    (h : take? methods.head? stream = some (reply, rest)) :
    cut methods stream = (cut methods.tail rest).map (reply :: ·) := by
  have hne : stream ≠ [] := by
    rintro rfl
    exact absurd (stream_of_take? h).2 (Nat.not_lt_zero _)
  rw [cut, if_neg hne]
  split
  · next hnone => rw [h] at hnone; cases hnone
  · next hsome =>
    rw [h] at hsome
    cases hsome
    rfl

/-- Cutting loses nothing of a stream. -/
theorem stream_of_cut {methods : List Method} {stream : Bytes} {replies : List Reply}
    (h : cut methods stream = some replies) :
    stream = replies.flatMap fun reply => reply.head ++ reply.body := by
  fun_induction cut methods stream generalizing replies with
  | case1 =>
    cases h
    rfl
  | case2 => cases h
  | case3 methods stream hne reply rest htake ih =>
    obtain ⟨others, hothers, rfl⟩ := Option.map_eq_some_iff.mp h
    rw [List.flatMap_cons, ← ih hothers]
    exact (stream_of_take? htake).1

end Reply

/-! ## Numbers in a head -/

namespace Text

theorem not_mem_digits (n : Nat) : '\r' ∉ (toString n).toList := by
  rw [Nat.toString_eq_repr, Nat.toList_repr]
  intro h
  exact absurd (Nat.isDigit_of_mem_toDigits (by decide) (by decide) h) (by decide)

theorem trim_toDigits (n : Nat) : trim (' ' :: Nat.toDigits 10 n) = Nat.toDigits 10 n := by
  have hdigit : ∀ c ∈ Nat.toDigits 10 n, ¬ isBlank c = true := by
    intro c hc hblank
    have hc := Nat.isDigit_of_mem_toDigits (by decide) (by decide) hc
    simp only [Char.isDigit, Bool.and_eq_true, decide_eq_true_eq, ge_iff_le,
      UInt32.le_iff_toNat_le] at hc
    simp only [isBlank, Bool.or_eq_true, Bool.and_eq_true, decide_eq_true_eq, beq_iff_eq,
      Char.toNat] at hblank
    have h48 : ('0').val.toNat = 48 := rfl
    have h57 : ('9').val.toNat = 57 := rfl
    omega
  have hkeep : ∀ cs : List Char, (∀ c ∈ cs, ¬ isBlank c = true) →
      cs.dropWhile isBlank = cs := by
    intro cs hcs
    cases cs with
    | nil => rfl
    | cons c cs => exact List.dropWhile_cons_of_neg (hcs c List.mem_cons_self)
  rw [trim, List.dropWhile_cons_of_pos (by decide), hkeep _ hdigit,
    hkeep _ (fun c hc => hdigit c (List.mem_reverse.mp hc)), List.reverse_reverse]

end Text

/-! ## Media types in a head -/

theorem MediaType.not_mem_html : '\r' ∉ html.toList := by decide

theorem MediaType.not_mem_ofPath (path : String) : '\r' ∉ (ofPath path).toList := by
  rw [ofPath]
  split
  · decide
  · next ext hext =>
    cases hfound : table.lookup (String.ofList (Text.lower ext)) with
    | none => exact (by decide : '\r' ∉ fallback.toList)
    | some mediaType =>
      obtain ⟨before, behind, hsplit, -⟩ := List.lookup_eq_some_iff.mp hfound
      have hmem : (String.ofList (Text.lower ext), mediaType) ∈ table := by
        rw [hsplit]
        exact List.mem_append_right _ List.mem_cons_self
      have hplain := List.all_eq_true.mp table_has_no_line_break _ hmem
      rw [Bool.and_eq_true] at hplain
      simpa using hplain.1

/-! ## The lines of a head -/

namespace Response

/-- The first line of a head. -/
def statusLine (r : Response) : List Char :=
  (r.version.token ++ " " ++ toString r.status.code ++ " " ++ r.status.reason).toList

/-- A field as a response writes it, with a space before the value. -/
def field (name value : String) : HeadField := ⟨name.toList, ' ' :: value.toList⟩

/-- The fields of a head. -/
def fields (r : Response) : List HeadField :=
  [field "Content-Type" r.contentType] ++
  (match r.coding with
    | none => []
    | some c => [field "Content-Encoding" c.token, field "Vary" "Accept-Encoding"]) ++
  [field "Content-Length" (toString r.contentLength),
   field "Date" (Date.format r.date),
   field "Server" serverName,
   field "Connection" (if r.keepAlive then "keep-alive" else "close")]

theorem toList_headLines (r : Response) :
    r.headLines.map String.toList = r.statusLine :: r.fields.map HeadField.line := by
  cases hcoding : r.coding with
  | none =>
    simp only [headLines, statusLine, fields, hcoding, List.cons_append, List.nil_append,
      List.map_cons, String.toList_append]
    rfl
  | some c =>
    simp only [headLines, statusLine, fields, hcoding, List.cons_append, List.nil_append,
      List.map_cons, String.toList_append]
    rfl

theorem toList_join_lines (line : String) (lines : List String) :
    (String.join ((line :: lines).map (· ++ "\r\n")) ++ "\r\n").toList
      = line.toList ++ after lineEnd (lines.map String.toList) ++ after lineEnd [[], []] := by
  rw [String.toList_append, String.toList_join]
  induction lines generalizing line with
  | nil => simp [after, lineEnd]
  | cons next lines ih =>
    rw [List.map_cons, List.flatMap_cons, List.append_assoc, ih next, String.toList_append]
    simp [after, lineEnd]

theorem toList_head (r : Response) :
    r.head.toList
      = r.statusLine ++ after lineEnd (r.fields.map HeadField.line) ++ after lineEnd [[], []] := by
  obtain ⟨line, lines, hlines⟩ : ∃ line lines, r.headLines = line :: lines := ⟨_, _, rfl⟩
  have hrow := toList_headLines r
  rw [hlines, List.map_cons] at hrow
  injection hrow with hline hfields
  rw [head, hlines, toList_join_lines, hline, hfields]

/-! ## What the lines are made of -/

theorem isField_field {name : String} (hne : name.toList ≠ []) (hspace : ' ' ∉ name.toList)
    (hcolon : ':' ∉ name.toList) (value : String) : (field name value).IsField :=
  ⟨hne, hspace, hcolon⟩

theorem isField_fields (r : Response) : ∀ f ∈ r.fields, f.IsField := by
  have htype := @isField_field "Content-Type" (by decide) (by decide) (by decide)
  have hcoding := @isField_field "Content-Encoding" (by decide) (by decide) (by decide)
  have hvary := @isField_field "Vary" (by decide) (by decide) (by decide)
  have hlength := @isField_field "Content-Length" (by decide) (by decide) (by decide)
  have hdate := @isField_field "Date" (by decide) (by decide) (by decide)
  have hserver := @isField_field "Server" (by decide) (by decide) (by decide)
  have hconnection := @isField_field "Connection" (by decide) (by decide) (by decide)
  cases hsome : r.coding with
  | none => simp [fields, hsome, htype, hlength, hdate, hserver, hconnection]
  | some c => simp [fields, hsome, htype, hcoding, hvary, hlength, hdate, hserver, hconnection]

theorem not_mem_padded (width n : Nat) : '\r' ∉ (Date.padded width n).toList := by
  rw [Date.padded, String.toList_append, String.toList_ofList, List.mem_append, not_or]
  refine ⟨fun h => ?_, Text.not_mem_digits n⟩
  exact absurd (List.eq_of_mem_replicate h) (by decide)

theorem not_mem_date (wall : Nat) : '\r' ∉ (Date.format wall).toList := by
  have hweekday : ∀ days, '\r' ∉ (Date.weekday days).toList := by
    intro days
    unfold Date.weekday
    split <;> decide
  have hmonth : ∀ month, '\r' ∉ (Date.monthName month).toList := by
    intro month
    unfold Date.monthName
    split <;> decide
  have hyear : ∀ year, '\r' ∉ (Date.yearText year).toList := by
    intro year
    rw [Date.yearText]
    split
    · rw [String.toList_append, List.mem_append, not_or]
      exact ⟨by decide, Text.not_mem_digits year⟩
    · exact not_mem_padded 4 year
  simp only [Date.format, String.toList_append, List.mem_append, not_or, hweekday, hmonth, hyear,
    not_mem_padded]
  decide

/-- No line has a carriage return if the media type has none. -/
theorem not_mem_line {r : Response} (htype : '\r' ∉ r.contentType.toList) :
    ∀ line ∈ r.statusLine :: r.fields.map HeadField.line, '\r' ∉ line := by
  have hversion : '\r' ∉ r.version.token.toList := by cases r.version <;> decide
  have hreason : '\r' ∉ r.status.reason.toList := by cases r.status <;> decide
  have hcoding : ∀ c : Coding, '\r' ∉ c.token.toList := by
    intro c
    cases c <;> decide
  have hconnection : '\r' ∉ (if r.keepAlive then "keep-alive" else "close").toList := by
    cases r.keepAlive <;> decide
  rw [← toList_headLines]
  cases hcoding? : r.coding with
  | none =>
    simp only [headLines, hcoding?, List.cons_append, List.nil_append, List.map_cons,
      List.forall_mem_cons, String.toList_append, List.mem_append, not_or, hversion, hreason,
      htype, hconnection, Text.not_mem_digits, not_mem_date]
    decide
  | some c =>
    simp only [headLines, hcoding?, List.cons_append, List.nil_append, List.map_cons,
      List.forall_mem_cons, String.toList_append, List.mem_append, not_or, hversion, hreason,
      htype, hcoding, hconnection, Text.not_mem_digits, not_mem_date]
    decide

theorem no_lineEnd {r : Response} (htype : '\r' ∉ r.contentType.toList) :
    ∀ line ∈ r.statusLine :: r.fields.map HeadField.line, ¬ lineEnd <:+: line := by
  intro line hline hend
  exact not_mem_line htype line hline (hend.subset List.mem_cons_self)

/-! ## What a client finds in a head -/

theorem linesOf_head {r : Response} (htype : '\r' ∉ r.contentType.toList) :
    Reply.linesOf (Bytes.ofText r.head)
      = r.statusLine :: (r.fields.map HeadField.line ++ [[], []]) := by
  have hrow : r.statusLine ++ after lineEnd (r.fields.map HeadField.line) ++ after lineEnd [[], []]
      = r.statusLine ++ after lineEnd (r.fields.map HeadField.line ++ [[], []]) := by
    rw [List.append_assoc, after, after, after, List.flatMap_append]
  have hlines : ∀ line ∈ r.statusLine :: (r.fields.map HeadField.line ++ [[], []]),
      ¬ lineEnd <:+: line := by
    rw [← List.cons_append]
    intro line hline
    rcases List.mem_append.mp hline with hline | hline
    · exact no_lineEnd htype line hline
    · rw [List.mem_cons, List.mem_singleton, or_self] at hline
      rw [hline]
      decide
  rw [Reply.linesOf, Bytes.text?_ofText]
  dsimp only
  rw [toList_head, hrow, Text.splitLines_append_after hlines]

theorem filterMap_ofLine? {fields : List HeadField} (h : ∀ f ∈ fields, f.IsField) :
    (fields.map HeadField.line).filterMap Field.ofLine?
      = fields.map fun f => ⟨f.name, f.value⟩ := by
  rw [List.filterMap_map, ← List.filterMap_eq_map]
  refine List.filterMap_congr fun f hf => ?_
  exact Field.ofLine?_eq_some_iff.mpr ⟨f, rfl, h f hf, rfl⟩

/-- A head announces the length that the response has. -/
theorem announced?_head {r : Response} (htype : '\r' ∉ r.contentType.toList) :
    Reply.announced? (Bytes.ofText r.head) = some r.contentLength := by
  have hlength : Text.digits? (field "Content-Length" (toString r.contentLength)).value
      = some r.contentLength := by
    rw [field, HeadField.value, Nat.toString_eq_repr, Nat.toList_repr, Text.trim_toDigits,
      Text.digits?_toDigits]
  have hempty : [[], []].filterMap Field.ofLine? = [] := rfl
  rw [Reply.announced?, linesOf_head htype, List.tail_cons, List.filterMap_append,
    filterMap_ofLine? r.isField_fields, hempty, List.append_nil]
  cases hcoding : r.coding with
  | none =>
    rw [fields, hcoding]
    exact hlength
  | some c =>
    rw [fields, hcoding]
    exact hlength

/-- The first empty line of a stream is the one that ends the first head. -/
theorem firstIndex?_head {r : Response} (htype : '\r' ∉ r.contentType.toList) (rest : Bytes) :
    ∃ i, Text.firstIndex? Request.headEnd (Bytes.ofText r.head ++ rest) = some i ∧
      i + Request.headEnd.length = (Bytes.ofText r.head).length := by
  have hne : ∀ line ∈ r.fields.map HeadField.line, line ≠ [] := by
    intro line hline
    obtain ⟨f, hf, rfl⟩ := List.mem_map.mp hline
    exact (r.isField_fields f hf).line_ne_nil
  have hbytes : Bytes.ofText r.head
      = Bytes.ofText (String.ofList (r.statusLine ++ after lineEnd (r.fields.map HeadField.line)))
          ++ Request.headEnd := by
    rw [← String.ofList_toList (s := r.head), toList_head, String.ofList_append,
      Bytes.ofText_append]
    rfl
  have hlength := congrArg List.length hbytes
  rw [List.length_append] at hlength
  refine ⟨_, ?_, hlength.symm⟩
  rw [hbytes, List.append_assoc]
  exact Text.firstIndex?_text hne (no_lineEnd htype) rest

/-! ## Responses that a client can read -/

/-- A response that can be read by a client who knows the method of its request. -/
structure Framed (method : Option Method) (r : Response) : Prop where
  contentType : '\r' ∉ r.contentType.toList
  body : r.body.write.1.length = if method = some .head then 0 else r.contentLength

end Response

namespace Reply

/-- The reply that a client reads where a response was written. -/
def ofResponse (r : Response) : Reply := ⟨Bytes.ofText r.head, r.body.write.1⟩

variable {method : Option Method} {methods more : List Method}
variable {r : Response} {responses : List Response}

theorem take?_framed (h : r.Framed method) (rest : Bytes) :
    take? method (r.write.1 ++ rest) = some (ofResponse r, rest) := by
  obtain ⟨i, hi, hend⟩ := Response.firstIndex?_head h.contentType (r.body.write.1 ++ rest)
  have hwrite : r.write.1 ++ rest = Bytes.ofText r.head ++ (r.body.write.1 ++ rest) := by
    rw [Response.write, List.append_assoc]
  have hlength : bodyLength? method (Bytes.ofText r.head) = some r.body.write.1.length := by
    rw [bodyLength?, Response.announced?_head h.contentType, Option.map_some, h.body]
  rw [hwrite, take?, hi]
  dsimp only
  rw [hend, List.take_left, List.drop_left, hlength]
  dsimp only
  rw [if_pos (by rw [List.length_append]; omega), List.take_left, List.drop_left]
  rfl

/-- A client gets the responses that were written, and goes on with what comes after them. -/
theorem cut_framed (h : List.Forall₂ (fun method r => r.Framed (some method)) methods responses)
    (more : List Method) (rest : Bytes) :
    cut (methods ++ more) ((responses.flatMap fun r => r.write.1) ++ rest)
      = (cut more rest).map (responses.map ofResponse ++ ·) := by
  -- A reply that is taken off the stream takes the method of its request with it.
  induction h with
  | nil =>
    simp only [List.nil_append, List.flatMap_nil, List.map_nil]
    exact Option.map_id'.symm
  | @cons method r methods responses hr hrest ih =>
    have htake := take?_framed hr ((responses.flatMap fun r => r.write.1) ++ rest)
    have hcut : cut (method :: methods ++ more)
          (r.write.1 ++ ((responses.flatMap fun r => r.write.1) ++ rest))
        = (cut (methods ++ more) ((responses.flatMap fun r => r.write.1) ++ rest)).map
            (ofResponse r :: ·) := cut_of_take? htake
    rw [List.flatMap_cons, List.append_assoc, hcut, ih, Option.map_map]
    rfl

end Reply

end ContentServer
