import ContentServer.Codec.Stored
import ContentServer.Proofs.Http.Negotiation

/-!
# Codings that a client accepts

An `Accept-Encoding` field is a list.  Each of its elements is the name of a coding, maybe with
parameters behind semicolons, and with the parameter `q=0` the client refuses the coding.  A client
*offers* a coding with an element that has exactly its name and no such parameter
(`Coding.IsOffered`).

The parser does not take the elements apart.  For it an element *mentions* a coding if the name of
the coding occurs anywhere in it (`Coding.IsMentioned`).  So three kinds of elements make it list a
coding that the client does not offer (`Coding.Misleads`).

* The coding is refused, as in `gzip;q=0`.
* The name is part of a longer one, as in `brotli`.
* The name stands in a parameter, as in `identity;x=deflate`.

The preferred one of the codings that are mentioned is used for every rendered document.
`Request.coding_of_parse` says that there is no other way to a coding that is not offered.
-/

namespace ContentServer

/-! ## Elements of a list -/

namespace Coding

/-- The name that an element of a list starts with, in lower case. -/
def nameIn (element : List Char) : List Char :=
  Text.lower (Text.trim ((List.splitOn ';' element).headD []))

/-- The parameters of an element, in lower case. -/
def parametersIn (element : List Char) : List (List Char) :=
  (List.splitOn ';' element).tail.map fun p => Text.lower (Text.trim p)

/-- An element has the name of a coding and does not refuse it. -/
structure IsOffered (element : List Char) (c : Coding) : Prop where
  name : nameIn element = c.token.toList
  not_refused : "q=0".toList ∉ parametersIn element

instance (element : List Char) (c : Coding) : Decidable (IsOffered element c) :=
  decidable_of_iff (nameIn element = c.token.toList ∧ "q=0".toList ∉ parametersIn element)
    ⟨fun h => ⟨h.1, h.2⟩, fun h => ⟨h.name, h.not_refused⟩⟩

/-- The name of a coding occurs in an element. -/
def IsMentioned (element : List Char) (c : Coding) : Prop := c.token.toList <:+: element

/-- An element mentions a coding and does not offer it. -/
inductive Misleads (element : List Char) (c : Coding) : Prop where
  /-- It refuses the coding. -/
  | refused (hname : nameIn element = c.token.toList) (h : "q=0".toList ∈ parametersIn element)
  /-- It has another name that the name of the coding is part of. -/
  | longer (hname : nameIn element ≠ c.token.toList)
      (h : c.token.toList <:+: (List.splitOn ';' element).headD [])
  /-- It has another name, and the name of the coding stands in a parameter. -/
  | parameter (hname : nameIn element ≠ c.token.toList)
      (h : ∃ p ∈ (List.splitOn ';' element).tail, c.token.toList <:+: p)

theorem IsMentioned.offered_or_misleads {element : List Char} {c : Coding}
    (h : IsMentioned element c) : IsOffered element c ∨ Misleads element c := by
  by_cases hname : nameIn element = c.token.toList
  · by_cases hrefused : "q=0".toList ∈ parametersIn element
    · exact Or.inr (.refused hname hrefused)
    · exact Or.inl ⟨hname, hrefused⟩
  · have hmark : ';' ∉ c.token.toList := by cases c <;> decide
    obtain ⟨piece, hpiece, hin⟩ := (Text.infix_iff_exists_mem_splitOn hmark).mp h
    obtain ⟨first, others, hcut⟩ := List.exists_cons_of_ne_nil (List.splitOn_ne_nil ';' element)
    rw [hcut] at hpiece
    rcases List.mem_cons.mp hpiece with rfl | hother
    · exact Or.inr (.longer hname (by rwa [hcut]))
    · exact Or.inr (.parameter hname ⟨piece, by rwa [hcut], hin⟩)

theorem token_inj {c d : Coding} (h : c.token.toList = d.token.toList) : c = d := by
  have hc := find?_token c
  rw [h, find?_token, Option.some.injEq] at hc
  exact hc.symm

theorem Preferred.mem {listed : List Coding} {c : Coding} (h : Preferred listed c) :
    c ∈ listed :=
  mem_of_choose h.choose

theorem mem_codingsIn {value : List Char} {c : Coding} :
    c ∈ Head.codingsIn value ↔ c.token.toList <:+: value := by
  have hall : c ∈ [gzip, deflate, br] := by cases c <;> decide
  rw [Head.codingsIn, List.mem_filter, and_iff_right hall, decide_eq_true_iff]

end Coding

/-! ## Codings of rendered documents -/

/-- The codec that leaves everything as it is. -/
def Codec.plain : Codec where
  encode b := some b
  decode b := some b
  decode_encode h := h ▸ rfl

/-- A response names a coding in its head. -/
def Response.Names (r : Response) (c : Coding) : Prop :=
  Reply.valuesOf "content-encoding" (Bytes.ofText r.head) = [c.token.toList]

/-- A rendered document is named to be in the preferred coding, if it is encoded at all. -/
theorem Response.names_html_iff {codecs : Codecs} {request : Request} {wall : Nat}
    {document : String} {compress : Bool} {c : Coding} :
    (html codecs request wall document compress).Names c ↔
      compress = true ∧ Coding.Preferred request.codings c ∧
        ∃ encoded, (codecs c).encode (Bytes.ofText document) = some encoded := by
  have h := html_negotiated codecs request wall document compress
  rw [← h.coding_iff, Names, h.named]
  cases (html codecs request wall document compress).coding with
  | none => simp
  | some d =>
    rw [Option.toList_some, List.map_singleton, List.singleton_inj, Option.some.injEq]
    exact ⟨Coding.token_inj, fun h => h ▸ rfl⟩

namespace Request

/-- The elements of the lists in the `Accept-Encoding` fields among some fields. -/
def acceptedIn (fields : List HeadField) : List (List Char) :=
  (Head.named "accept-encoding" fields).flatMap fun f => List.splitOn ',' f.value

/-- What a request lists are the codings that are mentioned in its head. -/
theorem mem_codings_iff {maxBody : Nat} {buffer : Bytes} {r : Request} {n : Nat}
    (h : parse maxBody buffer = .ok (some (r, n))) {c : Coding} :
    c ∈ r.codings ↔ ∃ element ∈ acceptedIn (headFields buffer), Coding.IsMentioned element c := by
  obtain ⟨-, -, hr⟩ := headIn_spec h
  have hcodings : r.codings = [] ++ (Head.named "accept-encoding" (headFields buffer)).flatMap
      fun f => Head.codingsIn f.value := congrArg codings hr
  have hcomma : ',' ∉ c.token.toList := by cases c <;> decide
  have hvalue : ∀ f : HeadField, c ∈ Head.codingsIn f.value ↔
      ∃ element ∈ List.splitOn ',' f.value, Coding.IsMentioned element c := fun f => by
    rw [Coding.mem_codingsIn, Text.infix_iff_exists_mem_splitOn hcomma]
    rfl
  rw [hcodings, List.nil_append, List.mem_flatMap, acceptedIn]
  simp only [hvalue, List.mem_flatMap]
  exact ⟨fun ⟨f, hf, e, he, hc⟩ => ⟨e, ⟨f, hf, he⟩, hc⟩,
    fun ⟨e, ⟨f, hf, he⟩, hc⟩ => ⟨f, hf, e, he, hc⟩⟩

/-- A rendered response to an accepted head names a coding if and only if documents are encoded, the
coding is the preferred one of those that are mentioned, and its encoder does not fail.  So some
element offers it or misleads.  Every coding that is ever named is offered if and only if the
preferred one is. -/
theorem coding_of_parse {maxBody : Nat} {buffer : Bytes} {r : Request} {n : Nat}
    (h : parse maxBody buffer = .ok (some (r, n))) :
    let elements := acceptedIn (headFields buffer)
    (∀ c, c ∈ r.codings ↔ ∃ element ∈ elements, Coding.IsMentioned element c) ∧
    (∀ (codecs : Codecs) (wall : Nat) (document : String) (compress : Bool) (c : Coding),
      (Response.html codecs r wall document compress).Names c ↔
        compress = true ∧ Coding.Preferred r.codings c ∧
          ∃ encoded, (codecs c).encode (Bytes.ofText document) = some encoded) ∧
    (∀ (codecs : Codecs) (wall : Nat) (document : String) (compress : Bool) (c : Coding),
      (Response.html codecs r wall document compress).Names c →
        ∃ element ∈ elements, Coding.IsOffered element c ∨ Coding.Misleads element c) ∧
    ((∀ (codecs : Codecs) (wall : Nat) (document : String) (compress : Bool) (c : Coding),
        (Response.html codecs r wall document compress).Names c →
          ∃ element ∈ elements, Coding.IsOffered element c) ↔
      ∀ c, Coding.Preferred r.codings c → ∃ element ∈ elements, Coding.IsOffered element c) := by
  intro elements
  refine ⟨fun _ => mem_codings_iff h, fun _ _ _ _ _ => Response.names_html_iff, ?_, ?_, ?_⟩
  · intro codecs wall document compress c hnames
    have hlisted := (Response.names_html_iff.mp hnames).2.1.mem
    obtain ⟨element, helement, hmentioned⟩ := (mem_codings_iff h).mp hlisted
    exact ⟨element, helement, hmentioned.offered_or_misleads⟩
  · intro hnamed c hpreferred
    have hnames : (Response.html (fun _ => Codec.plain) r 0 "" true).Names c :=
      Response.names_html_iff.mpr ⟨rfl, hpreferred, _, rfl⟩
    exact hnamed _ _ _ _ c hnames
  · intro hoffered codecs wall document compress c hnames
    exact hoffered c (Response.names_html_iff.mp hnames).2.1

/-- A head that offers a coding, refuses another one and mentions no other. -/
theorem coding_of_an_offer :
    ∃ r, parse 20 (Bytes.ofText "GET / HTTP/1.1\r\nAccept-Encoding: gzip;q=0.5, br;q=0\r\n\r\n")
        = .ok (some (r, 55)) ∧ r.codings = [.gzip, .br] ∧
      ∀ (codecs : Codecs) (wall : Nat) (document : String) (compress : Bool) (c : Coding),
        (Response.html codecs r wall document compress).Names c →
          ∃ element ∈ ["gzip;q=0.5".toList, " br;q=0".toList], Coding.IsOffered element c := by
  have hparse :
      parse 20 (Bytes.ofText "GET / HTTP/1.1\r\nAccept-Encoding: gzip;q=0.5, br;q=0\r\n\r\n")
        = .ok (some
          ({ method := .get, target := "/", version := .v11, codings := [.gzip, .br] }, 55)) := rfl
  have helements : acceptedIn (headFields
      (Bytes.ofText "GET / HTTP/1.1\r\nAccept-Encoding: gzip;q=0.5, br;q=0\r\n\r\n"))
        = ["gzip;q=0.5".toList, " br;q=0".toList] := rfl
  obtain ⟨-, -, -, hnamed⟩ := coding_of_parse hparse
  rw [helements] at hnamed
  refine ⟨_, hparse, rfl, hnamed.mpr fun c hpreferred => ?_⟩
  cases hpreferred with
  | gzip h => exact ⟨"gzip;q=0.5".toList, by decide, by decide⟩
  | deflate h hgzip => exact absurd (by decide) hgzip
  | br h hgzip hdeflate => exact absurd (by decide) hgzip

/-- A buffer with a head that is accepted, and a rendered response to it that names a coding which
the head does not offer. -/
def GetsUnoffered (buffer : Bytes) : Prop :=
  ∃ r n c, parse 1048576 buffer = .ok (some (r, n)) ∧
    (Response.html Codec.stored r 0 "<p>hello</p>" true).Names c ∧
    ∀ element ∈ acceptedIn (headFields buffer), ¬ Coding.IsOffered element c

/-- The head of a request whose only field has one element. -/
def headWith (element : String) : Bytes :=
  Bytes.ofText ("GET / HTTP/1.1\r\nAccept-Encoding: " ++ element ++ "\r\n\r\n")

theorem getsUnoffered_of {element : String} {c : Coding} {n : Nat}
    (hparse : parse 1048576 (headWith element)
      = .ok (some ({ method := .get, target := "/", version := .v11, codings := [c] }, n)))
    (helements : acceptedIn (headFields (headWith element)) = [element.toList])
    (hno : ¬ Coding.IsOffered element.toList c)
    (hencodes : ∃ encoded, (Codec.stored c).encode (Bytes.ofText "<p>hello</p>") = some encoded) :
    GetsUnoffered (headWith element) := by
  have hpreferred : Coding.Preferred [c] c := by
    rw [← Coding.choose_eq_some_iff]
    cases c <;> decide
  refine ⟨_, n, c, hparse, Response.names_html_iff.mpr ⟨rfl, hpreferred, hencodes⟩, ?_⟩
  rw [helements, List.forall_mem_singleton]
  exact hno

/-- Each of the three kinds of elements: a coding that is refused, a longer name and a parameter. -/
theorem coding_not_offered :
    GetsUnoffered (headWith "gzip;q=0") ∧ GetsUnoffered (headWith "brotli") ∧
      GetsUnoffered (headWith "identity;x=deflate") := by
  refine ⟨?_, ?_, ?_⟩
  · exact getsUnoffered_of (c := .gzip) (n := 45) rfl rfl (by decide) ⟨_, rfl⟩
  · exact getsUnoffered_of (c := .br) (n := 43) rfl rfl (by decide) ⟨_, rfl⟩
  · exact getsUnoffered_of (c := .deflate) (n := 55) rfl rfl (by decide) ⟨_, rfl⟩

end Request

end ContentServer
