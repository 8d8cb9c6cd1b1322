import ContentServer.Proofs.Http.Heads
import ContentServer.Proofs.Text.Trimming

/-!
# Lengths of bodies

The bytes behind a head belong to its body as far as the head says so, and the next request starts
behind them.  Whoever stands in front of the server may read the same head less strictly.  A head is
safe if such a reader finds the same length in it: no field announces a body of another kind, and
every length is plain digits that denote the one length.  `HeadField.Frames` says this of a field.
It looks at the name without the blanks around it.

The parser looks at the name as it is and refuses a space in it, but no other blank.  It takes every
number, and each length on its own.  So it lets through three kinds of heads that are not safe.

* A field with a tab or another blank around its name is passed over, even if it announces a body in
  chunks or a length.
* A length may have a plus sign before its digits.
* Of lengths that differ the last one holds.

`Request.framing_of_parse` says that there are no others.
-/

namespace ContentServer

namespace HeadField

/-! ## What a field says about the body -/

/-- Whether a field has a name, given in lower case, when the blanks around it are overlooked. -/
def isCalled (name : String) (f : HeadField) : Bool :=
  Text.lower (Text.trim f.name) = name.toList

/-- A field with blanks around its name. -/
def IsPadded (f : HeadField) : Prop := Text.trim f.name ≠ f.name

/-- A field that leaves no doubt that the body has a given length, also when the blanks around names
are overlooked. -/
structure Frames (length : Nat) (f : HeadField) : Prop where
  not_transferEncoding : f.isCalled "transfer-encoding" = false
  contentLength : f.isCalled "content-length" = true →
    f.value ≠ [] ∧ (∀ c ∈ f.value, c.isDigit = true) ∧ f.number = length

variable {f : HeadField}

theorem isCalled_eq_isNamed (h : ¬ f.IsPadded) (name : String) :
    f.isCalled name = f.isNamed name := by
  rw [isCalled, isNamed, not_not.mp h]

/-- A field that has one of the names as it is written has no blanks around it. -/
theorem not_isPadded_of_isNamed {name : String} (hname : Text.trim name.toList = name.toList)
    (h : f.isNamed name = true) : ¬ f.IsPadded := by
  have hlower : Text.lower f.name = name.toList := of_decide_eq_true h
  refine not_not.mpr (Text.trim_eq_self_of_length_eq ?_)
  calc (Text.trim f.name).length
      = (Text.lower (Text.trim f.name)).length := (List.length_map _).symm
    _ = (Text.trim (Text.lower f.name)).length := by rw [Text.lower_trim]
    _ = (Text.lower f.name).length := by rw [hlower, hname]
    _ = f.name.length := List.length_map _

/-- A number is plain digits iff it has no sign. -/
theorem HasNumber.plain_iff (h : f.HasNumber) :
    (f.value ≠ [] ∧ ∀ c ∈ f.value, c.isDigit = true) ↔ '+' ∉ f.value := by
  obtain ⟨digits, hvalue | hvalue, hne, hdigits⟩ := h
  · rw [hvalue]
    exact ⟨fun _ hplus => absurd (hdigits '+' hplus) (by decide), fun _ => ⟨hne, hdigits⟩⟩
  · rw [hvalue]
    exact ⟨fun hplain => absurd (hplain.2 '+' List.mem_cons_self) (by decide),
      fun hno => absurd List.mem_cons_self hno⟩

variable {maxBody length : Nat}

/-- Among the fields with proper names only lengths can leave a doubt. -/
theorem Legal.frames_iff (h : f.Legal maxBody) (hproper : ¬ f.IsPadded) :
    f.Frames length ↔
      (f.isNamed "content-length" = true → '+' ∉ f.value ∧ f.number = length) := by
  constructor
  · intro hframes hnamed
    have hcalled := (isCalled_eq_isNamed hproper _).trans hnamed
    obtain ⟨hne, hdigits, hnumber⟩ := hframes.contentLength hcalled
    exact ⟨(h.contentLength hnamed).1.plain_iff.mp ⟨hne, hdigits⟩, hnumber⟩
  · intro hlength
    refine ⟨(isCalled_eq_isNamed hproper _).trans h.not_transferEncoding, fun hcalled => ?_⟩
    rw [isCalled_eq_isNamed hproper] at hcalled
    obtain ⟨hno, hnumber⟩ := hlength hcalled
    obtain ⟨hne, hdigits⟩ := (h.contentLength hcalled).1.plain_iff.mpr hno
    exact ⟨hne, hdigits, hnumber⟩

end HeadField

/-! ## What a head says about the body -/

/-- The fields of a legal head leave no doubt about a length iff those with blanks around their
names leave none, and every announced length is this one and has no sign. -/
theorem Head.Legal.frames_iff {maxBody length : Nat} {h : Head} (hlegal : h.Legal maxBody) :
    (∀ f ∈ h.fields, f.Frames length) ↔
      (∀ f ∈ h.fields, f.IsPadded → f.Frames length) ∧
        ∀ f ∈ named "content-length" h.fields, '+' ∉ f.value ∧ f.number = length := by
  constructor
  · intro hframes
    refine ⟨fun f hf _ => hframes f hf, fun f hf => ?_⟩
    obtain ⟨hf, hnamed⟩ := List.mem_filter.mp hf
    have hproper := HeadField.not_isPadded_of_isNamed (by decide) hnamed
    exact ((hlegal.fields f hf).frames_iff hproper).mp (hframes f hf) hnamed
  · rintro ⟨hpadded, hlength⟩ f hf
    by_cases hpad : f.IsPadded
    · exact hpadded f hf hpad
    · exact ((hlegal.fields f hf).frames_iff hpad).mpr fun hnamed =>
        hlength f (List.mem_filter.mpr ⟨hf, hnamed⟩)

namespace Request

/-- The head of an accepted request has legal fields only, and the last of its lengths holds.  Its
fields leave no doubt about the length iff those with blanks around their names leave none, and
every announced length is the one that holds and has no sign. -/
theorem framing_of_parse {maxBody : Nat} {buffer : Bytes} {r : Request} {n : Nat}
    (h : parse maxBody buffer = .ok (some (r, n))) :
    (headIn buffer r).bytes <+: buffer.drop (blankLength buffer) ∧
      (∀ f ∈ headFields buffer, f.Legal maxBody) ∧
      r.contentLength = ((Head.named "content-length" (headFields buffer)).map
        HeadField.number).getLastD 0 ∧
      ((∀ f ∈ headFields buffer, f.Frames r.contentLength) ↔
        (∀ f ∈ headFields buffer, f.IsPadded → f.Frames r.contentLength) ∧
          ∀ f ∈ Head.named "content-length" (headFields buffer),
            '+' ∉ f.value ∧ f.number = r.contentLength) := by
  obtain ⟨hbytes, hlegal, hr⟩ := headIn_spec h
  exact ⟨hbytes, hlegal.fields, congrArg contentLength hr, hlegal.frames_iff⟩

/-- A head with one plain length leaves no doubt. -/
theorem framing_of_one_length :
    ∃ r, parse 20 (Bytes.ofText "POST / HTTP/1.1\r\nContent-Length: 5\r\n\r\n")
        = .ok (some (r, 38)) ∧ r.contentLength = 5 ∧
      ∀ f ∈ headFields (Bytes.ofText "POST / HTTP/1.1\r\nContent-Length: 5\r\n\r\n"),
        f.Frames 5 := by
  have hparse : parse 20 (Bytes.ofText "POST / HTTP/1.1\r\nContent-Length: 5\r\n\r\n")
      = .ok (some ({ method := .post, target := "/", version := .v11, contentLength := 5 }, 38)) :=
    rfl
  have hfields : headFields (Bytes.ofText "POST / HTTP/1.1\r\nContent-Length: 5\r\n\r\n")
      = [⟨"Content-Length".toList, " 5".toList⟩] := rfl
  obtain ⟨-, -, -, hframes⟩ := framing_of_parse hparse
  rw [hfields] at hframes ⊢
  refine ⟨_, hparse, rfl, hframes.mpr ⟨?_, ?_⟩⟩
  · simp only [List.forall_mem_singleton]
    exact fun hpadded => absurd (by decide) hpadded
  · decide

/-- A buffer with a head that is accepted and leaves a doubt about the length. -/
def IsDoubtful (maxBody : Nat) (buffer : Bytes) : Prop :=
  ∃ r n, parse maxBody buffer = .ok (some (r, n)) ∧
    ¬ ∀ f ∈ headFields buffer, f.Frames r.contentLength

/-- Each of the three kinds of doubt: a body in chunks behind a tab, two lengths, and a length with
a sign. -/
theorem framing_in_doubt :
    IsDoubtful 1048576
        (Bytes.ofText "GET / HTTP/1.1\r\nTransfer-Encoding\t: chunked\r\n\r\n") ∧
      IsDoubtful 1048576
        (Bytes.ofText "GET / HTTP/1.1\r\nContent-Length: 5\r\nContent-Length: 6\r\n\r\n") ∧
      IsDoubtful 1048576 (Bytes.ofText "GET / HTTP/1.1\r\nContent-Length: +5\r\n\r\n") := by
  refine ⟨?_, ?_, ?_⟩
  · refine ⟨{ method := .get, target := "/", version := .v11 }, 47, rfl, fun hall => ?_⟩
    have hframes := hall ⟨"Transfer-Encoding\t".toList, " chunked".toList⟩ List.mem_cons_self
    exact absurd hframes.not_transferEncoding (by decide)
  · refine ⟨{ method := .get, target := "/", version := .v11, contentLength := 6 }, 56, rfl,
      fun hall => ?_⟩
    have hframes := hall ⟨"Content-Length".toList, " 5".toList⟩ List.mem_cons_self
    exact absurd (hframes.contentLength (by decide)).2.2 (by decide)
  · refine ⟨{ method := .get, target := "/", version := .v11, contentLength := 5 }, 38, rfl,
      fun hall => ?_⟩
    have hframes := hall ⟨"Content-Length".toList, " +5".toList⟩ List.mem_cons_self
    exact absurd ((hframes.contentLength (by decide)).2.1 '+') (by decide)

end Request

end ContentServer
