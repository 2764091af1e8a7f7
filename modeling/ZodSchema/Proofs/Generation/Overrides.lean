import ZodSchema.Proofs.Contract.Check
import ZodSchema.Proofs.Generation.Source
import ZodSchema.Proofs.Generation.Twins

/-!
# Overriding settings

Settings that are merged into a document win where they state a value, leave everything else as it
was, and change nothing when they are merged in once more.

* `withSettings`, `withProvider`  the two steps on a document in which every mapping stands once
* `Loaded.unshared`            no mapping that is written to stands at several places
* `rewritten_applyOverrides`   overrides in place are the two steps then
* `overridden_applyOverrides`  what is read of the document afterwards
* `anchored_override_reaches_alias`  what is merged into an anchored mapping is at its alias too
-/

namespace ZodSchema.Generation

open Value (Place same put)

/-! ## settings and provider of a document -/

/-- the mapping that overriding settings are merged into, an empty one where there is none -/
def settings (raw : Document) : Value.Entries :=
  ((Value.get? (configKey raw) raw).bind Value.entries?).getD []

/-- the document with overriding settings -/
def withSettings (overrides : Value.Entries) (raw : Document) : Document :=
  put (.text (configKey raw)) (.map (merge (settings raw) overrides)) raw

/-- the document with another provider, when its body is a mapping -/
def withProvider (provider : Option Value) (raw : Document) : Document :=
  match provider with
  | none => raw
  | some p =>
    match Value.get? "datamodel" raw with
    | none => put (.text "provider") p raw
    | some (.map body) => put (.text "datamodel") (.map (put (.text "provider") p body)) raw
    | some _ => raw

section
variable {raw : Document} {overrides : Value.Entries} {provider : Option Value} {name : String}

/-- an entry that is there is put there once more -/
theorem put_of_get? {v : Value} (h : Value.get? name raw = some v) :
    put (.text name) v raw = raw :=
  put_of_valueOf? (get?_eq_valueOf? name raw ▸ h)

theorem ne_configKey (h : name ∉ configKeys) : name ≠ configKey raw := by
  rintro rfl
  exact h (configKey_mem raw)

/-- settings are read under the key that they were written under -/
theorem configKey_put (raw : Document) (v : Value) :
    configKey (put (.text (configKey raw)) v raw) = configKey raw := by
  have hself := Value.get?_put_self (configKey raw) v raw
  have hne : ∀ k, k ≠ configKey raw →
      Value.get? k (put (.text (configKey raw)) v raw) = Value.get? k raw :=
    fun k hk => Value.get?_put_of_ne hk v raw
  rcases List.mem_cons.1 (configKey_mem raw) with hc | hc
  · rw [hc] at hself ⊢
    simp [configKey, configKeys, hself]
  · rw [List.mem_singleton.1 hc] at hself hne ⊢
    have hnone : Value.get? "config" raw = none := by
      cases hget : Value.get? "config" raw with
      | none => rfl
      | some w =>
        have : configKey raw = "config" := by simp [configKey, configKeys, hget]
        rw [this] at hc
        exact absurd hc (by decide)
    simp [configKey, configKeys, hself, hne "config" (by decide), hnone]

theorem configValue_of_map {es : Value.Entries}
    (h : Value.get? (configKey raw) raw = some (.map es)) : configValue raw = .map es := by
  unfold configValue
  rw [h]
  cases es <;> rfl

theorem settings_of_map {es : Value.Entries} (h : Value.get? (configKey raw) raw = some (.map es)) :
    settings raw = es := by
  unfold settings
  rw [h]
  rfl

/-! ## each step -/

theorem get?_withProvider (hp : name ≠ "provider") (hd : name ≠ "datamodel") :
    Value.get? name (withProvider provider raw) = Value.get? name raw := by
  unfold withProvider
  split
  · rfl
  · split
    · exact Value.get?_put_of_ne hp _ _
    · exact Value.get?_put_of_ne hd _ _
    · rfl

theorem configKey_withProvider : configKey (withProvider provider raw) = configKey raw := by
  refine configKey_congr fun k hk => get?_withProvider ?_ ?_ <;>
  · rintro rfl
    exact absurd hk (by decide)

theorem withProvider_withProvider :
    withProvider provider (withProvider provider raw) = withProvider provider raw := by
  cases provider with
  | none => rfl
  | some p =>
    cases hd : Value.get? "datamodel" raw with
    | none =>
      have hw : withProvider (some p) raw = put (.text "provider") p raw := by
        simp only [withProvider, hd]
      have hd' : Value.get? "datamodel" (put (.text "provider") p raw) = none := by
        rw [Value.get?_put_of_ne (by decide), hd]
      rw [hw]
      simp only [withProvider, hd']
      exact put_of_get? (Value.get?_put_self _ _ _)
    | some v =>
      cases v with
      | map body =>
        have hw : withProvider (some p) raw =
            put (.text "datamodel") (.map (put (.text "provider") p body)) raw := by
          simp only [withProvider, hd]
        have hd' := Value.get?_put_self "datamodel" (.map (put (.text "provider") p body)) raw
        rw [hw]
        simp only [withProvider, hd']
        rw [put_of_get? (Value.get?_put_self "provider" p body)]
        exact put_of_get? hd'
      | _ => simp only [withProvider, hd]

/-! ## what is read afterwards -/

/-- the body with overriding settings is the one from before, or the document itself -/
theorem body?_withSettings (overrides : Value.Entries) {body : Document}
    (h : body? raw = some body) :
    ∃ body', body? (withSettings overrides raw) = some body' ∧
      ∀ name, name ≠ configKey raw → Value.get? name body' = Value.get? name body := by
  have hd : Value.get? "datamodel" (withSettings overrides raw) = Value.get? "datamodel" raw :=
    Value.get?_put_of_ne (ne_configKey (by decide)) _ _
  unfold body? at h ⊢
  rw [hd]
  cases hv : Value.get? "datamodel" raw with
  | none =>
    rw [hv] at h
    cases h
    exact ⟨_, rfl, fun name hn => Value.get?_put_of_ne hn _ _⟩
  | some v =>
    rw [hv] at h
    cases v with
    | map es =>
      cases h
      exact ⟨_, rfl, fun _ _ => rfl⟩
    | _ => cases h

theorem body?_withProvider {body : Document} (p : Value) (h : body? raw = some body) :
    body? (withProvider (some p) raw) = some (put (.text "provider") p body) := by
  unfold body? at h
  cases hv : Value.get? "datamodel" raw with
  | none =>
    rw [hv] at h
    cases h
    have hd : Value.get? "datamodel" (put (.text "provider") p raw) = none := by
      rw [Value.get?_put_of_ne (by decide), hv]
    simp only [body?, withProvider, hv, hd]
  | some v =>
    rw [hv] at h
    cases v with
    | map es =>
      cases h
      simp only [body?, withProvider, hv, Value.get?_put_self]
    | _ => cases h

theorem providerValue?_put (s : String) (body : Document) :
    providerValue? (put (.text "provider") (.text s) body) = some (.text s) := by
  unfold providerValue?
  rw [Value.get?_put_self]
  rfl

/-- what is taken as data model of a document whose body names a provider names it -/
theorem provider_of_readInput {body : Document} {s : String} {d : Datamodel} {c : Config}
    (hb : body? raw = some body) (hp : providerValue? body = some (.text s))
    (h : readInput raw = .ok (d, c)) : d.provider.value.name = s := by
  unfold readInput at h
  rw [hb] at h
  dsimp only at h
  split at h
  · cases h
  · next models _ =>
    have hget : Value.get? "provider" (datamodelEntries raw body models) = some (.text s) := by
      unfold datamodelEntries
      rw [hp]
      simp [Value.get?]
    split at h
    · cases h
    · next hd =>
      split at h
      · cases h
      · cases h
        exact Contract.provider_of_datamodelOf hget hd

end

/-! ## writing in place -/

/-- the places of the mappings that overriding settings are written to -/
def settingsPlaces (raw : Document) (overrides : Value.Entries) : List Place :=
  (if ((Value.get? (configKey raw) raw).bind Value.entries?).isSome then [] else [[]]) ++
    (mappings (.map overrides)).map fun r => .text (configKey raw) :: r

/-- the place of the mapping that a provider is written to -/
def providerPlaces (raw : Document) : Option Value → List Place
  | none => []
  | some _ =>
    match Value.get? "datamodel" raw with
    | none => [[]]
    | some (.map _) => [[.text "datamodel"]]
    | some _ => []

/-- none of the mappings that are written to stands at several places -/
def Loaded.unshared (raw : Loaded) (overrides : Value.Entries) (provider : Option Value) : Bool :=
  (settingsPlaces raw.entries overrides ++ providerPlaces raw.entries provider).all raw.alone

/-- another document, in which all that stood alone does so still -/
structure Rewritten (raw : Loaded) (es : Document) (after : Loaded) : Prop where
  entries : after.entries = es
  alone : ∀ q, raw.alone q = true → after.alone q = true

section
variable {raw : Loaded} {overrides : Value.Entries}

theorem at?_singleton (name : String) (es : Document) :
    at? [.text name] (.map es) = Value.get? name es := by
  rw [get?_eq_valueOf?]
  exact Option.bind_fun_some _

/-- settings that are there -/
theorem rewritten_mergeAt {key : String} {es : Value.Entries}
    (hs : Value.get? key raw.entries = some (.map es))
    (h : ∀ r ∈ mappings (.map overrides), raw.alone (.text key :: r) = true) :
    Rewritten raw (put (.text key) (.map (merge es overrides)) raw.entries)
      (raw.mergeAt [.text key] overrides) := by
  have hr := Loaded.mergeAt_of_alone ((at?_singleton key raw.entries).trans hs) h
  refine ⟨hr.entries.trans ?_, hr.alone⟩
  rw [get?_eq_valueOf?] at hs
  simp only [setAt, hs]

theorem rewritten_applySettings
    (h : ∀ p ∈ settingsPlaces raw.entries overrides, raw.alone p = true) :
    Rewritten raw (withSettings overrides raw.entries) (applySettings raw overrides) := by
  have hmerge : ∀ r ∈ mappings (.map overrides),
      raw.alone (.text (configKey raw.entries) :: r) = true := fun r hr =>
    h _ (List.mem_append_right _ (List.mem_map_of_mem hr))
  unfold applySettings withSettings
  dsimp only
  rw [at?_singleton]
  cases hg : (Value.get? (configKey raw.entries) raw.entries).bind Value.entries? with
  | some es =>
    have hs : Value.get? (configKey raw.entries) raw.entries = some (.map es) := by
      obtain ⟨v, hv, he⟩ := Option.bind_eq_some_iff.1 hg
      cases v <;> cases he
      exact hv
    have hset : settings raw.entries = es := by rw [settings, hg, Option.getD_some]
    rw [Option.isSome_some, if_pos rfl, hset]
    exact rewritten_mergeAt hs hmerge
  | none =>
    have hroot : raw.alone [] = true :=
      h [] (List.mem_append_left _ (by rw [hg]; exact List.mem_cons_self))
    have hset : settings raw.entries = [] := by rw [settings, hg, Option.getD_none]
    rw [Option.isSome_none, if_neg (by decide), hset]
    have ha := Loaded.replaced_assign hroot (t := raw.entries) rfl
      (.text (configKey raw.entries)) (.map [])
    have hempty : Value.get? (configKey raw.entries)
        (raw.assign [] (.text (configKey raw.entries)) (.map [])).entries = some (.map []) := by
      rw [ha.entries]
      exact Value.get?_put_self _ _ _
    have hm := rewritten_mergeAt hempty fun r hr => ha.alone _ (hmerge r hr)
    refine ⟨hm.entries.trans ?_, fun q hq => hm.alone q (ha.alone q hq)⟩
    rw [ha.entries]
    exact put_put (by simp [same]) _ _ _

theorem rewritten_applyProvider {p : Value}
    (h : ∀ q ∈ providerPlaces raw.entries (some p), raw.alone q = true) :
    Rewritten raw (withProvider (some p) raw.entries) (applyProvider raw p) := by
  unfold applyProvider withProvider
  unfold providerPlaces at h
  cases hv : Value.get? "datamodel" raw.entries with
  | none =>
    rw [hv] at h
    have ha := Loaded.replaced_assign (h [] List.mem_cons_self) (t := raw.entries) rfl
      (.text "provider") p
    exact ⟨ha.entries, ha.alone⟩
  | some v =>
    rw [hv] at h
    cases v with
    | map body =>
      have hat := (at?_singleton "datamodel" raw.entries).trans hv
      have ha := Loaded.replaced_assign (h _ List.mem_cons_self) hat (.text "provider") p
      refine ⟨ha.entries.trans ?_, ha.alone⟩
      rw [get?_eq_valueOf?] at hv
      simp only [setAt, hv]
    | _ => exact ⟨rfl, fun _ hq => hq⟩

theorem providerPlaces_congr {raw raw' : Document}
    (h : Value.get? "datamodel" raw' = Value.get? "datamodel" raw) (provider : Option Value) :
    providerPlaces raw' provider = providerPlaces raw provider := by
  cases provider with
  | none => rfl
  | some p => simp only [providerPlaces, h]

theorem providerPlaces_withProvider (raw : Document) (provider : Option Value) :
    providerPlaces (withProvider provider raw) provider = providerPlaces raw provider := by
  cases provider with
  | none => rfl
  | some p =>
    unfold providerPlaces withProvider
    cases hv : Value.get? "datamodel" raw with
    | none => simp only [Value.get?_put_of_ne (show "datamodel" ≠ "provider" by decide), hv]
    | some v =>
      cases v with
      | map body => simp only [Value.get?_put_self]
      | _ => simp only [hv]

/-- **Overrides in place.**  Where none of the mappings that are written to stands at several
places, the document gets its settings and its provider, and nothing else changes. -/
theorem rewritten_applyOverrides (hne : overrides ≠ []) {provider : Option Value}
    (h : raw.unshared overrides provider = true) :
    Rewritten raw (withProvider provider (withSettings overrides raw.entries))
      (applyOverrides raw overrides provider) := by
  have hall := List.all_eq_true.1 h
  have hs := rewritten_applySettings fun p hp => hall p (List.mem_append_left _ hp)
  unfold applyOverrides
  rw [if_neg (by simpa using hne)]
  cases provider with
  | none => exact hs
  | some p =>
    have hd : Value.get? "datamodel" (applySettings raw overrides).entries =
        Value.get? "datamodel" raw.entries := by
      rw [hs.entries]
      exact Value.get?_put_of_ne (ne_configKey (by decide)) _ _
    have halone : ∀ q ∈ providerPlaces (applySettings raw overrides).entries (some p),
        (applySettings raw overrides).alone q = true := fun q hq =>
      hs.alone q (hall q (List.mem_append_right _ (providerPlaces_congr hd _ ▸ hq)))
    have hp := rewritten_applyProvider halone
    exact ⟨hs.entries ▸ hp.entries, fun q hq => hp.alone q (hs.alone q hq)⟩

end

/-! ## the document as a whole -/

/-- what overriding settings and a provider make of a document -/
structure Overridden (raw : Document) (overrides : Value.Entries) (provider : Option String)
    (after : Document) : Prop where
  /-- the settings stand where they stood, and the mapping that was merged into is read -/
  key : configKey after = configKey raw
  stored : Value.get? (configKey raw) after = some (configValue after)
  merged : configValue after = .map (merge (settings raw) overrides)
  /-- what the overrides state is there -/
  wins : ∀ path v, at? path (.map overrides) = some v → v.entries? = none →
    at? path (configValue after) = some v
  /-- what they do not speak of is as it was -/
  keeps : ∀ old, Value.get? (configKey raw) raw = some (.map old) → ∀ path v,
    Leaves path (.map overrides) → at? path (.map old) = some v →
      at? path (configValue after) = some v
  /-- so is everything beside the settings and the provider -/
  others : ∀ name, name ≠ configKey raw → name ≠ "provider" → name ≠ "datamodel" →
    Value.get? name after = Value.get? name raw
  body : ∀ body, body? raw = some body → ∃ body', body? after = some body' ∧
    ∀ name, name ≠ configKey raw → name ≠ "provider" →
      Value.get? name body' = Value.get? name body
  /-- the provider is the one that is given, whatever the document named -/
  given : ∀ s body, provider = some s → body? raw = some body →
    (body? after).bind providerValue? = some (.text s) ∧
      ∀ d c, readInput after = .ok (d, c) → d.provider.value.name = s

section
variable {overrides : Value.Entries}

theorem settings_withSettings (overrides : Value.Entries) (raw : Document)
    (provider : Option Value) :
    let after := withProvider provider (withSettings overrides raw)
    configKey after = configKey raw ∧
      Value.get? (configKey raw) after = some (.map (merge (settings raw) overrides)) := by
  intro after
  refine ⟨configKey_withProvider.trans (configKey_put raw _), ?_⟩
  rw [get?_withProvider (Ne.symm (ne_configKey (by decide))) (Ne.symm (ne_configKey (by decide)))]
  exact Value.get?_put_self _ _ _

/-- overrides written once more change nothing -/
theorem withOverrides_again (hk : keysApart overrides = true) (raw : Document)
    (provider : Option Value) :
    let after := withProvider provider (withSettings overrides raw)
    withProvider provider (withSettings overrides after) = after := by
  intro after
  obtain ⟨hkey, hstored⟩ := settings_withSettings overrides raw provider
  have hs : withSettings overrides after = after := by
    unfold withSettings
    have hread : Value.get? (configKey after) after =
        some (.map (merge (settings raw) overrides)) := hkey.symm ▸ hstored
    rw [settings_of_map hread, merge_merge hk, hkey]
    exact put_of_get? hstored
  rw [hs]
  exact withProvider_withProvider

/-- nor are they written to other places then -/
theorem unshared_again (hne : overrides ≠ []) {raw : Loaded} {provider : Option Value}
    (h : raw.unshared overrides provider = true) :
    (applyOverrides raw overrides provider).unshared overrides provider = true := by
  have hr := rewritten_applyOverrides hne h
  obtain ⟨hkey, hstored⟩ := settings_withSettings overrides raw.entries provider
  have hall := List.all_eq_true.1 h
  unfold Loaded.unshared
  rw [hr.entries, List.all_eq_true]
  refine List.forall_mem_append.2 ⟨fun p hp => ?_, fun p hp => ?_⟩
  · unfold settingsPlaces at hp
    rw [hkey, hstored] at hp
    exact hr.alone p (hall p (List.mem_append_left _ (List.mem_append_right _ hp)))
  · have hd : Value.get? "datamodel" (withSettings overrides raw.entries) =
        Value.get? "datamodel" raw.entries := Value.get?_put_of_ne (ne_configKey (by decide)) _ _
    rw [providerPlaces_withProvider, providerPlaces_congr hd] at hp
    exact hr.alone p (hall p (List.mem_append_right _ hp))

theorem overridden_withOverrides (raw : Document) (hk : keysApart overrides = true)
    (provider : Option String) : Overridden raw overrides provider
      (withProvider (provider.map .text) (withSettings overrides raw)) := by
  obtain ⟨hkey, hstored⟩ := settings_withSettings overrides raw (provider.map .text)
  generalize hafter : withProvider (provider.map .text) (withSettings overrides raw) = after
    at hkey hstored ⊢
  have hget : ∀ name, name ≠ "provider" → name ≠ "datamodel" →
      Value.get? name after = Value.get? name (withSettings overrides raw) := by
    intro name hp hd
    rw [← hafter]
    exact get?_withProvider hp hd
  have hvalue : configValue after = .map (merge (settings raw) overrides) :=
    configValue_of_map (hkey.symm ▸ hstored)
  have hkeyed : isKeyed (.map overrides) = true := by simpa [isKeyed] using hk
  refine ⟨hkey, hvalue ▸ hstored, hvalue, ?wins, ?keeps, ?others, ?body, ?given⟩
  case wins =>
    intro path v hv hleaf
    rw [hvalue]
    exact at?_mergeValue_of_leaf hkeyed hv hleaf (some (.map (settings raw)))
  case keeps =>
    intro old hold path v hl hv
    rw [hvalue, settings_of_map hold]
    exact at?_mergeValue_of_leaves hkeyed hl hv
  case others =>
    intro name hc hp hd
    rw [hget name hp hd]
    exact Value.get?_put_of_ne hc _ _
  case body =>
    intro body hb
    obtain ⟨b, hb', hsame⟩ := body?_withSettings overrides hb
    cases provider with
    | none => exact ⟨b, hafter ▸ hb', fun name hn _ => hsame name hn⟩
    | some s =>
      refine ⟨_, hafter ▸ body?_withProvider (.text s) hb', fun name hn hp => ?_⟩
      rw [Value.get?_put_of_ne hp, hsame name hn]
  case given =>
    rintro s body rfl hb
    obtain ⟨b, hb', -⟩ := body?_withSettings overrides hb
    have hafter' : body? after = some (put (.text "provider") (.text s) b) :=
      hafter ▸ body?_withProvider (.text s) hb'
    have hp := providerValue?_put s b
    rw [hafter']
    exact ⟨hp, fun d c hr => provider_of_readInput hafter' hp hr⟩

/-- **Overriding settings win and touch nothing else.**  Nothing changes, either, when they are
written once more.  All of it is about mappings that stand at one place each. -/
theorem overridden_applyOverrides (raw : Loaded) (hne : overrides ≠ [])
    (hk : keysApart overrides = true) (provider : Option String)
    (h : raw.unshared overrides (provider.map .text) = true) :
    let after := applyOverrides raw overrides (provider.map .text)
    Overridden raw.entries overrides provider after.entries ∧
      (applyOverrides after overrides (provider.map .text)).entries = after.entries := by
  intro after
  have hafter := (rewritten_applyOverrides hne h).entries
  have hagain := (rewritten_applyOverrides hne (unshared_again hne h)).entries
  rw [hafter, withOverrides_again hk] at hagain
  refine ⟨?_, hagain.trans hafter.symm⟩
  rw [show after.entries = _ from hafter]
  exact overridden_withOverrides raw.entries hk provider

/-- settings under their second key, and a provider in the data source, which is noted elsewhere -/
def nested : Loaded where
  entries := [(.text "datamodel", .map [(.text "models", .list []),
      (.text "datasource", .map [(.text "provider", .text "sqlite")])]),
    (.text "generator_config", .map [(.text "crud",
      .map [(.text "max_page_size", .int 20), (.text "generate_index", .bool false)])]),
    (.text "source", .map [(.text "provider", .text "sqlite")])]
  twins := [[[.text "datamodel", .text "datasource"], [.text "source"]]]

/-- CRUD schemas with longer pages -/
def longerPages : Value.Entries :=
  [(.text "generate_crud_schemas", .bool true),
    (.text "crud", .map [(.text "max_page_size", .int 50)])]

theorem overridden_longerPages :
    longerPages ≠ [] ∧ keysApart longerPages = true ∧
      nested.unshared longerPages (some (.text "mysql")) = true ∧
      let after := applyOverrides nested longerPages (some (.text "mysql"))
      configKey after.entries = "generator_config" ∧
      at? [.text "crud", .text "max_page_size"] (configValue after.entries) = some (.int 50) ∧
      at? [.text "crud", .text "generate_index"] (configValue after.entries) =
        some (.bool false) ∧
      (body? after.entries).bind providerValue? = some (.text "mysql") ∧
      (applyOverrides after longerPages (some (.text "mysql"))).entries = after.entries := by
  have hk : keysApart longerPages = true := by decide
  have hu : nested.unshared longerPages (some (.text "mysql")) = true := by decide
  obtain ⟨h, hagain⟩ :=
    overridden_applyOverrides nested (List.cons_ne_nil _ _) hk (some "mysql") hu
  refine ⟨List.cons_ne_nil _ _, hk, hu, h.key, h.wins _ _ rfl rfl, ?_,
    (h.given "mysql" _ rfl rfl).1, hagain⟩
  exact h.keeps _ rfl [.text "crud", .text "generate_index"] _ trivial rfl

/-- settings of which one mapping is anchored and stands at a second place -/
def anchoredText : String := "config:\n  crud: &c \x7bmax_page_size: 20\x7d\n  other: *c\n"

/-- the page size at the second place -/
def otherPageSize? (raw : Document) : Option Int :=
  match at? [.text "other", .text "max_page_size"] (configValue raw) with
  | some (.int n) => some n
  | _ => none

theorem at?_of_otherPageSize? {raw : Document} {n : Int} (h : otherPageSize? raw = some n) :
    at? [.text "other", .text "max_page_size"] (configValue raw) = some (.int n) := by
  unfold otherPageSize? at h
  split at h
  · next hn =>
    cases h
    exact hn
  · cases h

/-- **An override reaches an alias** of the mapping that it is merged into: at a path that the
overrides do not speak of there is another value afterwards. -/
theorem anchored_override_reaches_alias :
    Leaves [.text "other", .text "max_page_size"] (.map longerPages) ∧
    ∃ raw, readDocument ["m.yaml"] anchoredText.toUTF8 = .ok raw ∧
      at? [.text "other", .text "max_page_size"] (configValue raw.entries) = some (.int 20) ∧
      at? [.text "other", .text "max_page_size"]
        (configValue (applyOverrides raw longerPages none).entries) = some (.int 50) := by
  have hsizes : (readDocument ["m.yaml"] anchoredText.toUTF8).toOption.map (fun raw =>
      (otherPageSize? raw.entries,
        otherPageSize? (applyOverrides raw longerPages none).entries)) =
        some (some 20, some 50) := by decide +kernel
  cases hr : readDocument ["m.yaml"] anchoredText.toUTF8 with
  | error e =>
    rw [hr] at hsizes
    cases hsizes
  | ok raw =>
    rw [hr] at hsizes
    obtain ⟨h20, h50⟩ := Prod.mk.inj (Option.some.inj hsizes)
    exact ⟨trivial, raw, rfl, at?_of_otherPageSize? h20, at?_of_otherPageSize? h50⟩

end

end ZodSchema.Generation
