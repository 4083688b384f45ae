import Mathlib.Data.List.Basic
import Federation.Application.Uid
import Federation.Proofs.Text.Ends

/-!
# Addresses of a repository

The address of one repository is written in many ways (`AddressForm`), with or without `.git`, with slashes behind it
and with white space around it. Organization and project are the last two segments of its path, and the path is found
in one of three ways, by what stands in front of it. None of the separators is in a part of the address, so each of the
three ways finds the path in the forms that it is for, and all forms show the same context (`ofRepository?_spelling`).
-/

namespace Federation

/-! ### The first place of a text -/

namespace Text
variable {c : Char} {s sub t : List Char}

theorem afterFirst?_self_append (sub t : List Char) : afterFirst? sub (sub ++ t) = some t := by
  have hdrop : dropPrefix? sub (sub ++ t) = some t := dropPrefix?_eq_some.2 rfl
  cases h : sub ++ t with
  | nil =>
    rw [h] at hdrop
    exact hdrop
  | cons c r =>
    rw [h] at hdrop
    rw [afterFirst?, hdrop]

/-- What does not have the first character is passed over. -/
theorem afterFirst?_append (h : c ∉ s) (t : List Char) :
    afterFirst? (c :: sub) (s ++ t) = afterFirst? (c :: sub) t := by
  induction s with
  | nil => rfl
  | cons d s ih =>
    rw [List.mem_cons, not_or] at h
    rw [List.cons_append, afterFirst?, dropPrefix?, if_neg h.1]
    exact ih h.2

theorem afterFirst?_eq_none (h : c ∉ s) : afterFirst? (c :: sub) s = none := by
  have hnone : afterFirst? (c :: sub) (s ++ []) = none := afterFirst?_append h []
  rwa [List.append_nil] at hnone

end Text

/-! ### Forms of an address -/

/-- The ways in which the address of a repository is written. -/
inductive AddressForm where
  /-- A user and a host, with a colon in front of the path. -/
  | login
  | https
  | ssh
  /-- The path behind the name of a service. -/
  | service
  /-- The path alone. -/
  | path
deriving DecidableEq, Repr

namespace AddressForm

/-- What stands before the organization. -/
def lead (host : String) : AddressForm → String
  | login => "git@" ++ host ++ ":"
  | https => "https://" ++ host ++ "/"
  | ssh => "ssh://git@" ++ host ++ "/"
  | service => "github:"
  | path => ""

/-- The address of a project of an organization. -/
def write (form : AddressForm) (host org project : String) : String := form.lead host ++ org ++ "/" ++ project

/-- What may stand behind an address: `.git`, and slashes. -/
def ending (dotGit : Bool) (slashes : Nat) : String :=
  (if dotGit then ".git" else "") ++ String.ofList (List.replicate slashes '/')

end AddressForm

/-- A text that can be a host, an organization or a project in an address: it has no separator in it, and no white space
at its ends. -/
structure IsAddressPart (s : String) : Prop where
  nonempty : s ≠ ""
  free : ∀ c ∈ s.toList, c ≠ '/' ∧ c ≠ ':'
  front : ∀ c ∈ s.toList.head?, isBlankChar c = false
  back : ∀ c ∈ s.toList.getLast?, isBlankChar c = false

namespace IsAddressPart
variable {s : String}

theorem ne_nil (h : IsAddressPart s) : s.toList ≠ [] := fun hnil => h.nonempty (String.toList_eq_nil_iff.1 hnil)

theorem slash_not_mem (h : IsAddressPart s) : '/' ∉ s.toList := fun hc => (h.free _ hc).1 rfl

theorem colon_not_mem (h : IsAddressPart s) : ':' ∉ s.toList := fun hc => (h.free _ hc).2 rfl

theorem pieces_eq (h : IsAddressPart s) : Text.pieces (· == '/') s.toList = [s.toList] :=
  Text.pieces_of_free fun _ hc => beq_eq_false_iff_ne.2 (h.free _ hc).1

end IsAddressPart

namespace AppContext
variable {authority head path scheme : List Char} {address host org project : String} {c : AppContext}

/-! ### Names in an address -/

/-- An address less the slashes at its end, and `.git` in front of them. -/
def withoutEnding (s : List Char) : List Char :=
  let s := Text.dropEndWhile (· == '/') s
  (Text.dropSuffix? ".git".toList s).getD s

/-- The organization and the project that an address names: the last two segments of its path. -/
def AddressNames (address org project : String) : Prop :=
  ∃ path rest, repositoryPath? (withoutEnding (Text.trim address.toList)) = some path ∧
    segments path = rest ++ [org.toList, project.toList]

theorem ofRepository?_eq_some : ofRepository? address = some c ↔
    ∃ org project, AddressNames address org project ∧ ofNames org project = c := by
  unfold ofRepository? AddressNames withoutEnding
  rw [Option.bind_eq_bind, Option.bind_eq_some_iff]
  constructor
  · rintro ⟨path, hpath, hc⟩
    split at hc
    · rename_i project org rest hsegments
      refine ⟨String.ofList org, String.ofList project, ⟨path, rest.reverse, hpath, ?_⟩, Option.some.inj hc⟩
      rw [← List.reverse_reverse (segments path), hsegments]
      simp
    · cases hc
  · rintro ⟨org, project, ⟨path, rest, hpath, hsegments⟩, rfl⟩
    refine ⟨path, hpath, ?_⟩
    rw [hsegments]
    simp

/-! ### Paths -/

/-- The path of a project, with its organization. -/
def pathOf (org project : String) : List Char := org.toList ++ '/' :: project.toList

theorem schemeMark_eq : "://".toList = [':', '/', '/'] := rfl

theorem repositoryPath?_url (hscheme : ':' ∉ scheme) (hauthority : '/' ∉ authority) (path : List Char) :
    repositoryPath? (scheme ++ ("://".toList ++ (authority ++ '/' :: path))) = some path := by
  have hrest : Text.afterFirst? "://".toList (scheme ++ ("://".toList ++ (authority ++ '/' :: path))) =
      some (authority ++ '/' :: path) := by
    rw [schemeMark_eq, Text.afterFirst?_append hscheme, Text.afterFirst?_self_append]
  rw [repositoryPath?, hrest]
  dsimp only
  rw [Text.splitFirst_append hauthority]
  rfl

theorem repositoryPath?_colon (hhead : ':' ∉ head) (hpath : ':' ∉ path) (hfirst : path.head? ≠ some '/') :
    repositoryPath? (head ++ ':' :: path) = some path := by
  -- the only colon has no slash behind it
  have hdrop : Text.dropPrefix? "://".toList (':' :: path) = none := by
    refine Option.eq_none_iff_forall_ne_some.2 fun r hr => hfirst ?_
    obtain ⟨rfl⟩ := Text.dropPrefix?_eq_some.1 hr
    rfl
  have hnone : Text.afterFirst? "://".toList (head ++ ':' :: path) = none := by
    rw [schemeMark_eq] at hdrop ⊢
    rw [Text.afterFirst?_append hhead, Text.afterFirst?, hdrop]
    exact Text.afterFirst?_eq_none hpath
  rw [repositoryPath?, hnone, Text.splitFirst_append hhead]

theorem repositoryPath?_bare (hpath : ':' ∉ path) : repositoryPath? path = some path := by
  rw [repositoryPath?, schemeMark_eq, Text.afterFirst?_eq_none hpath, Text.splitFirst_eq_none.2 hpath]

theorem segments_pathOf (horg : IsAddressPart org) (hproject : IsAddressPart project) :
    segments (pathOf org project) = [org.toList, project.toList] := by
  have hpieces : Text.pieces (· == '/') (pathOf org project) = [org.toList, project.toList] := by
    rw [pathOf, Text.pieces_append_cons rfl, horg.pieces_eq, hproject.pieces_eq]
    rfl
  rw [segments, hpieces]
  simp [horg.nonempty, hproject.nonempty]

theorem toList_write (form : AddressForm) (host org project : String) :
    (form.write host org project).toList = (form.lead host).toList ++ pathOf org project := by
  simp [AddressForm.write, pathOf]

/-- In each form the path is found. -/
theorem repositoryPath?_write (form : AddressForm) (hhost : IsAddressPart host) (horg : IsAddressPart org)
    (hproject : IsAddressPart project) :
    repositoryPath? (form.write host org project).toList = some (pathOf org project) := by
  have hcolon : ':' ∉ pathOf org project := by
    simp [pathOf, horg.colon_not_mem, hproject.colon_not_mem]
  have hfirst : (pathOf org project).head? ≠ some '/' := by
    obtain ⟨c, r, hc⟩ := List.exists_cons_of_ne_nil horg.ne_nil
    have hne := (horg.free c (by simp [hc])).1
    simpa [pathOf, hc] using hne
  rw [toList_write]
  cases form with
  | login =>
    have hhead : ':' ∉ "git@".toList ++ host.toList := by simp [hhost.colon_not_mem]
    simpa [AddressForm.lead] using repositoryPath?_colon hhead hcolon hfirst
  | https =>
    have hscheme : ':' ∉ "https".toList := by decide
    simpa [AddressForm.lead] using repositoryPath?_url hscheme hhost.slash_not_mem (pathOf org project)
  | ssh =>
    have hscheme : ':' ∉ "ssh".toList := by decide
    have hauthority : '/' ∉ "git@".toList ++ host.toList := by simp [hhost.slash_not_mem]
    simpa [AddressForm.lead] using repositoryPath?_url hscheme hauthority (pathOf org project)
  | service =>
    have hhead : ':' ∉ "github".toList := by decide
    simpa [AddressForm.lead] using repositoryPath?_colon hhead hcolon hfirst
  | path => exact repositoryPath?_bare hcolon

/-! ### Ends -/

theorem getLast?_write (form : AddressForm) (host : String) (h : IsAddressPart project) :
    (form.write host org project).toList.getLast? = project.toList.getLast? := by
  rw [toList_write, pathOf, ← List.append_assoc, List.getLast?_append_of_ne_nil _ (List.cons_ne_nil _ _),
    List.getLast?_cons_of_ne_nil h.ne_nil]

theorem front_write (form : AddressForm) (host project : String) (h : IsAddressPart org) :
    ∀ c ∈ (form.write host org project).toList.head?, isBlankChar c = false := by
  rw [toList_write]
  cases form with
  | path =>
    obtain ⟨c, r, hc⟩ := List.exists_cons_of_ne_nil h.ne_nil
    simpa [AddressForm.lead, pathOf, hc] using h.front
  | login | https | ssh | service => simp [AddressForm.lead, isBlankChar]

/-- Without `.git` at its end, the project does not give the address one. -/
theorem not_dotGit_write (h : ¬ ".git".toList <:+ project.toList) (form : AddressForm) (host org : String) :
    ¬ ".git".toList <:+ (form.write host org project).toList := by
  rw [toList_write, pathOf, ← List.append_assoc]
  exact fun hsuffix => h (Text.suffix_of_append_cons (by decide) hsuffix)

theorem toList_ending (dotGit : Bool) (slashes : Nat) : (AddressForm.ending dotGit slashes).toList =
    (if dotGit then ".git".toList else []) ++ List.replicate slashes '/' := by
  cases dotGit <;> simp [AddressForm.ending]

theorem isBlankChar_of_mem_ending {dotGit : Bool} {slashes : Nat} {c : Char}
    (h : c ∈ (AddressForm.ending dotGit slashes).toList) : isBlankChar c = false := by
  have hchars : ∀ c ∈ ".git/".toList, isBlankChar c = false := by simp [isBlankChar]
  rw [toList_ending] at h
  refine hchars c ?_
  rcases List.mem_append.1 h with h | h
  · cases dotGit with
    | false => cases h
    | true => exact List.mem_append_left ['/'] h
  · rw [List.eq_of_mem_replicate h]
    decide

/-- What may stand behind an address is dropped. -/
theorem withoutEnding_append {address : List Char} (hlast : ∀ c ∈ address.getLast?, c ≠ '/')
    (hgit : ¬ ".git".toList <:+ address) (dotGit : Bool) (slashes : Nat) :
    withoutEnding (address ++ (AddressForm.ending dotGit slashes).toList) = address := by
  have hslashes : ∀ c ∈ List.replicate slashes '/', (c == '/') = true :=
    fun c hc => beq_iff_eq.2 (List.eq_of_mem_replicate hc)
  have hend : ∀ c ∈ (address ++ if dotGit then ".git".toList else []).getLast?, (c == '/') = false := fun c hc =>
    beq_eq_false_iff_ne.2 (Text.forall_mem_getLast?_append hlast (by cases dotGit <;> simp) c hc)
  rw [withoutEnding, toList_ending, ← List.append_assoc, Text.dropEndWhile_append hend hslashes]
  cases dotGit with
  | false =>
    rw [if_neg (by decide), List.append_nil, Text.dropSuffix?_eq_none hgit]
    rfl
  | true =>
    rw [if_pos rfl, Text.dropSuffix?_eq_some.2 rfl]
    rfl

/-! ### Addresses -/

/-- Every way to write the address of a repository shows the context of its organization and its project. -/
theorem ofRepository?_spelling (form : AddressForm) (host org project before after : String) (dotGit : Bool)
    (slashes : Nat) (hhost : IsAddressPart host) (horg : IsAddressPart org) (hproject : IsAddressPart project)
    (hgit : ¬ ".git".toList <:+ project.toList) (hbefore : isBlank before = true) (hafter : isBlank after = true) :
    ofRepository? (before ++ form.write host org project ++ AddressForm.ending dotGit slashes ++ after) =
      some (ofNames org project) := by
  have hback : ∀ c ∈ (form.write host org project).toList.getLast?, isBlankChar c = false ∧ c ≠ '/' := by
    rw [getLast?_write form host hproject]
    exact fun c hc => ⟨hproject.back c hc, (hproject.free c (List.mem_of_getLast? hc)).1⟩
  have hfront : ∀ c ∈ ((form.write host org project).toList ++ (AddressForm.ending dotGit slashes).toList).head?,
      isBlankChar c = false := by
    have hne : (form.write host org project).toList ≠ [] := by simp [toList_write, pathOf]
    rw [List.head?_append_of_ne_nil _ hne]
    exact front_write form host project horg
  have htrim : Text.trim (before ++ form.write host org project ++ AddressForm.ending dotGit slashes ++ after).toList =
      (form.write host org project).toList ++ (AddressForm.ending dotGit slashes).toList := by
    rw [String.toList_append, String.toList_append, String.toList_append, List.append_assoc before.toList]
    exact Text.trim_append hbefore hafter hfront
      (Text.forall_mem_getLast?_append (fun c hc => (hback c hc).1) fun c hc => isBlankChar_of_mem_ending hc)
  have hdrop := withoutEnding_append (fun c hc => (hback c hc).2) (not_dotGit_write hgit form host org) dotGit slashes
  refine ofRepository?_eq_some.2 ⟨org, project, ⟨pathOf org project, [], ?_, segments_pathOf horg hproject⟩, rfl⟩
  rw [htrim, hdrop, repositoryPath?_write form hhost horg hproject]

/-- A name with points in it, in the form that a login has, and white space that is not ASCII. -/
theorem ofRepository?_spelling_of_login :
    IsAddressPart "github.com" ∧ IsAddressPart "Acme" ∧ IsAddressPart "web.shop" ∧
    ¬ ".git".toList <:+ "web.shop".toList ∧ isBlank "\n " = true ∧ isBlank "\u00a0" = true ∧
    ofRepository? "\n git@github.com:Acme/web.shop.git//\u00a0" = some (ofNames "Acme" "web.shop") := by
  have hhost : IsAddressPart "github.com" :=
    ⟨by decide, by simp, by simp [isBlankChar], by simp [isBlankChar]⟩
  have horg : IsAddressPart "Acme" :=
    ⟨by decide, by simp, by simp [isBlankChar], by simp [isBlankChar]⟩
  have hproject : IsAddressPart "web.shop" :=
    ⟨by decide, by simp, by simp [isBlankChar], by simp [isBlankChar]⟩
  have hgit : ¬ ".git".toList <:+ "web.shop".toList := by decide
  exact ⟨hhost, horg, hproject, hgit, by decide, by decide,
    ofRepository?_spelling .login "github.com" "Acme" "web.shop" "\n " "\u00a0" true 2 hhost horg hproject hgit
      (by decide) (by decide)⟩

end AppContext

end Federation
