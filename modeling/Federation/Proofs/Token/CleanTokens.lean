import Federation.Proofs.Text.Ends
import Federation.Proofs.Token.Sources

/-!
# Clean tokens

A token is clean if it is not blank and has no white space at its ends, as a header wants it. Whatever stands ready is
trimmed before it is handed out, so it is clean. What a server grants in exchange for its token is looked at as if it
were trimmed, and handed out as it stands. So no token is blank, but just those that stand ready are sure to be clean
(`obtain_clean_iff`): as soon as there is an exchange, some answer to it makes a token that is not.
-/

namespace Federation

/-- Text with something in it and without white space at its ends. -/
structure IsClean (s : String) : Prop where
  visible : isBlank s = false
  front : ∀ c ∈ s.toList.head?, isBlankChar c = false
  back : ∀ c ∈ s.toList.getLast?, isBlankChar c = false

theorem isClean_trim {s : String} (h : isBlank s = false) : IsClean (trim s) := by
  obtain ⟨hfront, hback⟩ := Text.ends_trim s.toList
  refine ⟨?_, ?_, ?_⟩
  · rw [isBlank, trim, String.toList_ofList, Text.isBlank_trim]
    exact h
  · rwa [trim, String.toList_ofList]
  · rwa [trim, String.toList_ofList]

theorem IsClean.trim_eq {s : String} (h : IsClean s) : trim s = s := by
  have hself := Text.trim_append (r := []) (t := []) rfl rfl h.front h.back
  rw [List.nil_append, List.append_nil] at hself
  rw [trim, hself, String.ofList_toList]

/-- Of texts with something in them, the clean ones are those that trimming leaves alone. -/
theorem isClean_iff {s : String} (h : isBlank s = false) : IsClean s ↔ trim s = s :=
  ⟨IsClean.trim_eq, fun htrim => htrim ▸ isClean_trim h⟩

namespace AuthToken

open TokenSource

variable {σ : Type} {env : Environment} {explicit : Option String} {url : String} {token : AuthToken}

/-! ### Where a token comes from -/

theorem source_of_first (h : first? env explicit = some token) : token.source ≠ .exchange ∧ IsClean token.value := by
  obtain ⟨earlier, later, hready, -, raw, -, hvisible, htrim⟩ := first?_eq_some.1 h
  refine ⟨fun hsource => ?_, htrim ▸ isClean_trim hvisible⟩
  have hmem : token.source ∈ ready := hready ▸ List.mem_append_right _ List.mem_cons_self
  rw [hsource] at hmem
  exact absurd hmem (by decide)

/-- A search ends with what stands ready, or fails, or ends with the answer to the one request that it makes. -/
theorem run_obtain (transport : Transport (StateM σ)) (url : String) (env : Environment) (explicit : Option String)
    (s : σ) :
    let result := ((obtain transport url env explicit).run s).1
    (exchangeRequest? url env explicit = none ∧
      ((∃ token, first? env explicit = some token ∧ result = .ok token) ∨ ∃ e, result = .error e)) ∨
    ∃ q, exchangeRequest? url env explicit = some q ∧ result = ofAnswer ((transport q).run s).1 := by
  intro result
  have hresult : result = (((obtain Talk.send url env explicit).via transport).run s).1 := by
    rw [obtain_via]
  have hsends := sends_obtain url env explicit
  have hdone {o : Except Error AuthToken} (h : obtain Talk.send url env explicit = .done o) :
      exchangeRequest? url env explicit = none ∧ result = o := by
    rw [h] at hsends hresult
    generalize exchangeRequest? url env explicit = q? at hsends ⊢
    cases hsends
    exact ⟨rfl, hresult⟩
  rcases obtain_cases url env explicit with ⟨token, hfirst, h⟩ | ⟨-, -, h⟩ | ⟨server, -, -, -, h⟩ |
    ⟨server, email, -, -, -, ⟨u, -, h⟩ | ⟨-, why, h⟩⟩
  · exact .inl ⟨(hdone h).1, .inl ⟨token, hfirst, (hdone h).2⟩⟩
  · exact .inl ⟨(hdone h).1, .inr ⟨_, (hdone h).2⟩⟩
  · exact .inl ⟨(hdone h).1, .inr ⟨_, (hdone h).2⟩⟩
  · rw [h] at hsends hresult
    generalize exchangeRequest? url env explicit = q? at hsends ⊢
    cases hsends
    exact .inr ⟨_, rfl, hresult⟩
  · exact .inl ⟨(hdone h).1, .inr ⟨_, (hdone h).2⟩⟩

/-! ### What an exchange may grant -/

/-- An answer with a token that begins with a blank. -/
def paddedAnswer : HttpResponse := ⟨200, "\x7b\"access_token\":\" t0k\"\x7d".toUTF8.toList⟩

theorem grants_paddedAnswer : Grants paddedAnswer " t0k" :=
  grants_of_body (by decide +kernel) (by decide +kernel) (by decide)

/-- The transport that gives this answer to everything. -/
def padding : Transport (StateM Unit) := fun _ => pure (some paddedAnswer)

/-- Over it, every exchange hands out a token that is not clean. -/
theorem run_obtain_padding {q : HttpRequest} (h : exchangeRequest? url env explicit = some q) :
    ((obtain padding url env explicit).run ()).1 = .ok ⟨" t0k", .exchange⟩ := by
  rcases run_obtain padding url env explicit () with ⟨hnone, -⟩ | ⟨_, -, hrun⟩
  · cases hnone.symm.trans h
  · exact hrun.trans (ofAnswer_eq_ok.2 ⟨rfl, paddedAnswer, rfl, grants_paddedAnswer⟩)

theorem not_isClean_padded : ¬ IsClean " t0k" := fun h => absurd h.trim_eq (by decide)

/-- No search hands out a blank token, over any transport. A token is clean, except that one from an exchange stands as
the answer has it: that one is clean just if its text has no white space at its ends. So the tokens of a search are sure
to be clean only where it makes no exchange. -/
theorem obtain_clean_iff (url : String) (env : Environment) (explicit : Option String) :
    (∀ (σ : Type) (transport : Transport (StateM σ)) (s : σ) (token : AuthToken),
      ((obtain transport url env explicit).run s).1 = .ok token →
        isBlank token.value = false ∧
        (IsClean token.value ↔ (token.source = .exchange → trim token.value = token.value)) ∧
        (token.source = .exchange → ∃ q r, exchangeRequest? url env explicit = some q ∧
          ((transport q).run s).1 = some r ∧ Grants r token.value)) ∧
    ((∀ (σ : Type) (transport : Transport (StateM σ)) (s : σ) (token : AuthToken),
      ((obtain transport url env explicit).run s).1 = .ok token → IsClean token.value) ↔
        exchangeRequest? url env explicit = none) := by
  refine ⟨fun σ transport s token htoken => ?_, fun hclean => ?_, fun hnone σ transport s token htoken => ?_⟩
  · rcases run_obtain transport url env explicit s with ⟨-, ⟨t, hfirst, hrun⟩ | ⟨e, hrun⟩⟩ | ⟨q, hq, hrun⟩
    · cases htoken.symm.trans hrun
      obtain ⟨hsource, hclean⟩ := source_of_first hfirst
      exact ⟨hclean.visible, iff_of_true hclean (absurd · hsource), (absurd · hsource)⟩
    · cases htoken.symm.trans hrun
    · obtain ⟨hsource, r, hr, hgrants⟩ := ofAnswer_eq_ok.1 (hrun.symm.trans htoken)
      exact ⟨hgrants.visible, (isClean_iff hgrants.visible).trans ⟨fun h _ => h, (· hsource)⟩,
        fun _ => ⟨q, r, hq, hr, hgrants⟩⟩
  · refine Option.eq_none_iff_forall_ne_some.2 fun q hq => ?_
    exact not_isClean_padded (hclean Unit padding () _ (run_obtain_padding hq))
  · rcases run_obtain transport url env explicit s with ⟨-, ⟨t, hfirst, hrun⟩ | ⟨e, hrun⟩⟩ | ⟨q, hq, -⟩
    · cases htoken.symm.trans hrun
      exact (source_of_first hfirst).2
    · cases htoken.symm.trans hrun
    · cases hnone.symm.trans hq

/-- The settings for an exchange, and no others. -/
def exchanging : Environment := ⟨[("ZE_SERVER_TOKEN", "srv"), ("ZE_USER_EMAIL", "dev@acme.dev")]⟩

theorem exists_exchangeRequest : ∃ q, exchangeRequest? "https://ze.io" exchanging none = some q :=
  Option.isSome_iff_exists.1 (by decide +kernel)

/-- With a server token at hand, the token of an answer goes through, here with the blank in front. -/
theorem obtain_clean_iff_padded :
    ((obtain padding "https://ze.io" exchanging none).run ()).1 = .ok ⟨" t0k", .exchange⟩ ∧
      isBlank " t0k" = false ∧ ¬ IsClean " t0k" := by
  obtain ⟨q, hq⟩ := exists_exchangeRequest
  have hrun := run_obtain_padding hq
  obtain ⟨hvisible, hiff, -⟩ := (obtain_clean_iff "https://ze.io" exchanging none).1 Unit padding () _ hrun
  exact ⟨hrun, hvisible, fun h => absurd (hiff.1 h rfl) (by decide)⟩

/-- Not every token that is handed out is clean. -/
theorem not_obtain_clean : ¬ ∀ (σ : Type) (transport : Transport (StateM σ)) (url : String) (env : Environment)
    (explicit : Option String) (s : σ) (token : AuthToken),
    ((obtain transport url env explicit).run s).1 = .ok token → IsClean token.value := by
  intro h
  obtain ⟨q, hq⟩ := exists_exchangeRequest
  exact not_isClean_padded (h Unit padding _ _ _ () _ (run_obtain_padding hq))

end AuthToken

end Federation
