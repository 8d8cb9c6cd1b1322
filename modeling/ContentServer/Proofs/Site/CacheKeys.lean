import ContentServer.Site.Destination

/-!
# Cache keys

The key of a resource is its tenant, a tag, and the name of the page or the number of the post.  A
tenant is an arbitrary text, so a key can only be read from its end.

* The key of a post ends in digits.  A mark that is no digit stands before them, so they are the
  longest run of digits at the end.
* The key of a page ends in a letter, in another one for each page.

`Resource.key_inj` says that two keys are the same only if tenant and resource are.
-/

namespace ContentServer

/-! ## Texts that end in digits -/

/-- The longest run of digits at the end of a text that has a mark before its last digits. -/
theorem Text.takeWhile_reverse_append {mark : Char} (hm : mark.isDigit = false) (cs : List Char)
    {ds : List Char} (hd : ∀ d ∈ ds, d.isDigit = true) :
    (cs ++ mark :: ds).reverse.takeWhile Char.isDigit = ds.reverse := by
  have hr : (cs ++ mark :: ds).reverse = ds.reverse ++ mark :: cs.reverse := by simp
  rw [hr, List.takeWhile_append_of_pos (fun d h => hd d (List.mem_reverse.mp h)),
    List.takeWhile_cons_of_neg (by simp [hm]), List.append_nil]

/-- What stands before a mark and the digits after it can be told apart. -/
theorem Text.append_digits_inj {mark : Char} (hm : mark.isDigit = false) {cs cs' ds ds' : List Char}
    (hd : ∀ d ∈ ds, d.isDigit = true) (hd' : ∀ d ∈ ds', d.isDigit = true)
    (h : cs ++ mark :: ds = cs' ++ mark :: ds') : cs = cs' ∧ ds = ds' := by
  have hds : ds = ds' := by
    have hrun := takeWhile_reverse_append hm cs hd
    rw [h, takeWhile_reverse_append hm cs' hd'] at hrun
    exact (List.reverse_inj.mp hrun).symm
  subst hds
  exact ⟨List.append_cancel_right h, rfl⟩

/-- The decimal digits of a number are digits. -/
theorem Text.isDigit_of_mem_decimal {n : Nat} : ∀ d ∈ Nat.toDigits 10 n, d.isDigit = true :=
  fun _ h => Nat.isDigit_of_mem_toDigits (by decide) (by decide) h

/-- A number is known by its decimal digits. -/
theorem Text.decimal_inj {m n : Nat} (h : Nat.toDigits 10 m = Nat.toDigits 10 n) : m = n := by
  have hread := congrArg Text.digits? h
  rwa [digits?_toDigits, digits?_toDigits, Option.some.injEq] at hread

/-! ## Keys -/

namespace Resource

theorem toList_key_page (tenant : String) (name : PageName) :
    (Resource.key tenant (.page name)).toList
      = (tenant.toList ++ "_page_".toList) ++ name.text.toList := by
  simp [key]

theorem toList_key_post (tenant : String) (id : Nat) :
    (Resource.key tenant (.post id)).toList
      = (tenant.toList ++ "_post".toList) ++ '_' :: Nat.toDigits 10 id := by
  simp [key]

/-- The key of a page ends in a letter. -/
theorem takeWhile_key_page (tenant : String) (name : PageName) :
    (Resource.key tenant (.page name)).toList.reverse.takeWhile Char.isDigit = [] := by
  rw [toList_key_page]
  cases name <;> simp [PageName.text]

/-- The key of a post ends in a digit. -/
theorem takeWhile_key_post (tenant : String) (id : Nat) :
    (Resource.key tenant (.post id)).toList.reverse.takeWhile Char.isDigit ≠ [] := by
  rw [toList_key_post, Text.takeWhile_reverse_append (by decide) _ Text.isDigit_of_mem_decimal]
  simp [Nat.toDigits_ne_nil]

/-- A key belongs to one resource of one tenant. -/
theorem key_inj {tenant tenant' : String} {resource resource' : Resource}
    (h : resource.key tenant = resource'.key tenant') :
    tenant = tenant' ∧ resource = resource' := by
  have hchars := congrArg String.toList h
  have hdigits := congrArg (fun cs => cs.reverse.takeWhile Char.isDigit) hchars
  cases resource with
  | page name =>
    cases resource' with
    | page name' =>
      rw [toList_key_page, toList_key_page] at hchars
      have hname : name = name' := by
        have hlast := congrArg List.getLast? hchars
        cases name <;> cases name' <;> simp [PageName.text] at hlast ⊢
      subst hname
      have htenant := List.append_cancel_right (List.append_cancel_right hchars)
      exact ⟨String.toList_inj.mp htenant, rfl⟩
    | post id' =>
      rw [takeWhile_key_page] at hdigits
      exact absurd hdigits.symm (takeWhile_key_post tenant' id')
  | post id =>
    cases resource' with
    | page name' =>
      rw [takeWhile_key_page] at hdigits
      exact absurd hdigits (takeWhile_key_post tenant id)
    | post id' =>
      rw [toList_key_post, toList_key_post] at hchars
      obtain ⟨htag, hid⟩ := Text.append_digits_inj (by decide) Text.isDigit_of_mem_decimal
        Text.isDigit_of_mem_decimal hchars
      have htenant := List.append_cancel_right htag
      exact ⟨String.toList_inj.mp htenant, congrArg Resource.post (Text.decimal_inj hid)⟩

end Resource

end ContentServer
