import Federation.Proofs.Resolver.Remotes
import Federation.Proofs.Url.ReadsBack

/-!
# Entry URLs

The entry URL of a remote is written out from a parsed URL, whether the URL was the version of the dependency or the
answer of the registry. So it has a scheme and holds visible characters only, and the resolver and the manifest, which
check it in their own ways, parse the same text: they agree on it. Both accept it if the URL reads back
(`Url.ReadsBack`), as it does if it is an `http` or `https` URL of a plain host name.
-/

namespace Federation

theorem absoluteUrl?_eq_some {s : String} {u : Url} :
    absoluteUrl? s = some u ↔ Url.parse (withProtocol (trim s)) = .ok u ∧ u.canBeBase = true := by
  unfold absoluteUrl?
  cases Url.parse (withProtocol (trim s)) with
  | error e => simp
  | ok v =>
    simp only [Option.ite_none_right_eq_some, Option.some.injEq, Except.ok.injEq]
    constructor
    · rintro ⟨hbase, rfl⟩
      exact ⟨rfl, hbase⟩
    · rintro ⟨rfl, hbase⟩
      exact ⟨hbase, rfl⟩

namespace Url
variable {u : Url}

/-- The check of a manifest and that of the resolver come to the same for a written URL. -/
theorem Written.isAbsoluteUrl_text (h : u.Written) (hbase : u.canBeBase = true) :
    isAbsoluteUrl u.text = (absoluteUrl? u.text).isSome := by
  rw [h.absoluteUrl?_text hbase, isAbsoluteUrl]
  cases parse u.text with
  | error e => rfl
  | ok v => cases hv : v.canBeBase <;> simp [Except.toOption, hv]

theorem Written.absoluteUrl?_of_readsBack (h : u.Written) (hbase : u.canBeBase = true) (hback : u.ReadsBack) :
    absoluteUrl? u.text = some u := by
  rw [h.absoluteUrl?_text hbase, hback]
  exact Option.filter_some_pos hbase

theorem Written.isBlank_text (h : u.Written) : isBlank u.text = false := by
  obtain ⟨rest, hrest⟩ := u.exists_toList_eq
  obtain ⟨c, r, hscheme, -⟩ := h.scheme.letter
  have hc : VisibleChar c := (visible_cons.1 (hscheme ▸ h.scheme.visible)).1
  rw [isBlank, toList_text, hrest, hscheme, Text.isBlank, List.cons_append, List.all_cons, isBlankChar_of_visible hc]
  rfl

end Url

/-- The entry URL of a remote is that of a text which is an absolute URL. -/
theorem Descriptor.Yields.exists_entry {d : Descriptor} {context : Option AppContext}
    {answer : Except Error Resolution} {x : Remote} (h : d.Yields context answer x) :
    ∃ raw u, absoluteUrl? raw = some u ∧ x.remoteEntryUrl = u.text := by
  cases h with
  | direct _ _ hremote =>
    obtain ⟨u, hu, rfl⟩ := directRemote_eq_ok.1 hremote
    exact ⟨d.version, u, hu, rfl⟩
  | asked _ _ uid _ a _ hremote =>
    obtain ⟨raw, u, path, -, hu, -, rfl⟩ := Resolution.toRemote_eq_ok.1 hremote
    exact ⟨raw, u, hu, rfl⟩

namespace RemoteResolver

/-- Whatever the registry answers, the entry URL of every resolved remote is the written form of a URL that others can
be resolved against: it begins with the scheme, it is neither blank nor relative to a protocol, and the manifest takes
it for absolute just when the resolver does. Both do if the URL reads back, and then it stays as it is; a special URL
of a plain host name that is no `file` URL reads back. -/
theorem entryUrl_absolute {σ : Type} (transport : Transport (StateM σ)) (found : Option AppContext)
    (options : ResolveOptions) (ds : List Descriptor) (r : RemoteResolver) (s : σ) (rs : List Remote)
    (h : ((r.resolve transport found options ds).run s).1.1 = .ok rs) :
    ∀ x ∈ rs, ∃ u : Url, x.remoteEntryUrl = u.text ∧ u.canBeBase = true ∧
      (∃ rest, Url.scheme? x.remoteEntryUrl.toList = some (u.scheme, rest)) ∧
      isBlank x.remoteEntryUrl = false ∧
      withProtocol (trim x.remoteEntryUrl) = x.remoteEntryUrl ∧
      isAbsoluteUrl x.remoteEntryUrl = (absoluteUrl? x.remoteEntryUrl).isSome ∧
      (u.ReadsBack → isAbsoluteUrl x.remoteEntryUrl = true ∧ absoluteUrl? x.remoteEntryUrl = some u) ∧
      (SchemeKind.ofScheme u.scheme = .network → (∀ a ∈ u.authority, ∀ y ∈ a.host, y.Plain) → u.ReadsBack) := by
  intro x hx
  obtain ⟨d, -, token, s', hd⟩ := yields_of_mem_resolve h hx
  obtain ⟨raw, u, hu, hentry⟩ := hd.exists_entry
  obtain ⟨hparse, hbase⟩ := absoluteUrl?_eq_some.1 hu
  have hwritten := Url.written_parse hparse
  have hagree := hwritten.isAbsoluteUrl_text hbase
  rw [hentry, Url.toList_text]
  refine ⟨u, rfl, hbase, hwritten.scheme?_toList, hwritten.isBlank_text, ?_, hagree, fun hback => ?_,
    Url.readsBack_of_plain hparse⟩
  · rw [hwritten.trim_text hbase, hwritten.withProtocol_text]
  · have hsome := hwritten.absoluteUrl?_of_readsBack hbase hback
    exact ⟨by rw [hagree, hsome]; rfl, hsome⟩

/-- A registry that knows one application, counts the questions, and answers without a protocol. -/
def countingRegistry : Transport (StateM Nat) := fun q n =>
  let body := "\x7b\"value\":\x7b\"default_url\":\" //cdn.acme.dev/a/../cart/entry.js\"\x7d\x7d"
  let found := q.url.target = "/resolve/cart.shop.acme/1.0.0".toList
  (some (if found then ⟨200, body.toList.map fun c => UInt8.ofNat c.toNat⟩ else ⟨404, []⟩), n + 1)

theorem entryUrl_absolute_of_two :
    let r : RemoteResolver := ⟨Config.default, ⟨[]⟩, none⟩
    let ds : List Descriptor := [.parse "cart" "cart.shop.acme@1.0.0", .parse "ads" "https://Ads.acme.dev:443/x y.js"]
    let rs : List Remote :=
      [⟨"cart", "cart.shop.acme", "https://cdn.acme.dev/cart/entry.js", "https://cdn.acme.dev/cart/", "1.0.0"⟩,
        ⟨"ads", "ads", "https://ads.acme.dev/x%20y.js", "https://ads.acme.dev/", "https://ads.acme.dev/x%20y.js"⟩]
    ((r.resolve countingRegistry none ⟨true, some "secret"⟩ ds).run 0).1.1 = .ok rs ∧
    ∀ x ∈ rs, isBlank x.remoteEntryUrl = false ∧ isAbsoluteUrl x.remoteEntryUrl = true ∧
      (absoluteUrl? x.remoteEntryUrl).isSome = true := by
  intro r ds rs
  have h : ((r.resolve countingRegistry none ⟨true, some "secret"⟩ ds).run 0).1.1 = .ok rs :=
    eq_ok_of_toOption (by decide +kernel)
  have habsolute : ∀ x ∈ rs, isAbsoluteUrl x.remoteEntryUrl = true := by decide +kernel
  refine ⟨h, fun x hx => ?_⟩
  obtain ⟨u, -, -, -, hblank, -, hagree, -⟩ := entryUrl_absolute countingRegistry none _ ds r 0 rs h x hx
  exact ⟨hblank, habsolute x hx, hagree ▸ habsolute x hx⟩

end RemoteResolver

end Federation
