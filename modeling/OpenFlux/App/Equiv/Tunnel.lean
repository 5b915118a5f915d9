import OpenFlux.App.Tunnel

/-!
# Tunnels survive their JSON

`decode_encode`: a tunnel is read as it was written, whichever of its properties have their
defaults.  `value_build`: the URL of a form is found in the payload that is built from it.
-/

namespace OpenFlux.App

namespace Tunnel

theorem decode_encode (t : Tunnel) : decode t.encode = some t := by
  have hstr : ∀ s, Json.asString (.str s) = some s := fun _ => rfl
  have hnull := nullable_orNull hstr rfl
  have hport := nullable_orNull (fun n => asInt_toInt n) rfl
  have hpayload : asList Json.asString (.arr (t.transportConnPayload.map .str)) =
      some t.transportConnPayload := by
    simpa using asList_map hstr t.transportConnPayload
  have hbool : ∀ b, asBoolean (.bool b) = some b := fun _ => rfl
  simp +decide [decode, encode, asObject, required, defaulted, values_append,
    values_property_of_ne, values_propertyUnless_of_ne, foldlM_propertyUnless, hstr, hpayload, hnull,
    hport, hbool]

/-- The strings of a tunnel are valid UTF-8. -/
structure Valid (t : Tunnel) : Prop where
  name : validUTF8 t.name = true
  transportType : validUTF8 t.transportType = true
  transportConnPayload : ∀ s ∈ t.transportConnPayload, validUTF8 s = true
  encryptionKey : ∀ s ∈ t.encryptionKey, validUTF8 s = true
  adminHost : ∀ s ∈ t.adminHost, validUTF8 s = true
  adminUser : ∀ s ∈ t.adminUser, validUTF8 s = true
  hysteriaUri : ∀ s ∈ t.hysteriaUri, validUTF8 s = true
  connectionMode : validUTF8 t.connectionMode = true

theorem Valid.valid_encode {t : Tunnel} (h : t.Valid) : t.encode.valid = true := by
  have hname : ∀ name ∈ ["id", "name", "transportType", "transportConnPayload", "encryptionKey",
      "adminHost", "adminUser", "adminPort", "serverRevision", "hysteriaUri", "connectionMode",
      "autoFallback"], validUTF8 (literal name) = true := by
    decide +kernel
  simp only [List.forall_mem_cons] at hname
  obtain ⟨hid, hname, htransport, hpayload, hkey, hhost, huser, hport, hrevision, huri, hmode,
    hfallback, -⟩ := hname
  have hitems : (Json.arr (t.transportConnPayload.map .str)).valid = true := by
    refine validItems_iff.mpr fun v hv => ?_
    obtain ⟨s, hs, rfl⟩ := List.mem_map.mp hv
    exact h.transportConnPayload s hs
  have hnumber : (orNull (fun port : Int32 => .num port.toInt) t.adminPort).valid = true := by
    rcases t.adminPort with _ | port <;> rfl
  have hstr : (Json.str t.connectionMode).valid = true := h.connectionMode
  rw [encode, Json.valid]
  simp only [validMembers_append, validMembers_property, Bool.and_eq_true]
  exact ⟨⟨⟨⟨⟨⟨⟨⟨⟨⟨⟨⟨hid, rfl⟩, hname, h.name⟩, htransport, h.transportType⟩, hpayload, hitems⟩,
    validMembers_propertyUnless hkey (valid_orNull h.encryptionKey) _⟩,
    validMembers_propertyUnless hhost (valid_orNull h.adminHost) _⟩,
    validMembers_propertyUnless huser (valid_orNull h.adminUser) _⟩,
    validMembers_propertyUnless hport hnumber _⟩,
    validMembers_propertyUnless hrevision rfl _⟩,
    validMembers_propertyUnless huri (valid_orNull h.hysteriaUri) _⟩,
    validMembers_propertyUnless hmode hstr _⟩,
    validMembers_propertyUnless hfallback rfl _⟩

end Tunnel

namespace TunnelPayload

/-- A flag that is not asked for, and the value after it. -/
theorem value_skip {name : String} {flag arg : Bytes} (payload : List Bytes)
    (hflag : Kotlin.startsWith flag (literal "-") = true)
    (hne : Kotlin.trimStart flag 0x2D ≠ literal name)
    (hassign : Kotlin.startsWith (Kotlin.trimStart flag 0x2D) (literal name ++ literal "=") = false)
    (harg : Kotlin.startsWith arg (literal "-") = false) :
    value name (flag :: arg :: payload) = value name payload := by
  rw [value, hflag]
  simp only [Bool.not_true, Bool.false_eq_true, if_false, hne, hassign]
  rw [value, harg]
  rfl

theorem value_build {form : Form} {payload : List Bytes} (h : build form = some payload)
    (hurl : form.transport.usesUrl = true) : value "url" payload = form.url := by
  have hargs : ∃ rest, payload = [literal "--role", literal "client", literal "--transport",
      form.transport.cliName] ++ [literal "--url", form.url] ++ rest := by
    obtain ⟨args, hargs, rfl⟩ := Option.map_eq_some_iff.mp h
    rw [if_pos hurl] at hargs
    split_ifs at hargs
    rw [← Option.some.inj hargs, List.append_assoc]
    exact ⟨_, rfl⟩
  obtain ⟨rest, rfl⟩ := hargs
  have hcli : Kotlin.startsWith form.transport.cliName (literal "-") = false := by
    cases form.transport <;> decide
  show value "url" (literal "--role" :: literal "client" :: literal "--transport" ::
    form.transport.cliName :: literal "--url" :: form.url :: rest) = form.url
  rw [value_skip _ (by decide) (by decide) (by decide) (by decide),
    value_skip _ (by decide) (by decide) (by decide) hcli]
  rfl

theorem valid_build {form : Form} {payload : List Bytes} (h : build form = some payload)
    (hurl : form.transport.usesUrl = true) (hvalid : validUTF8 form.url = true) :
    ∀ s ∈ payload, validUTF8 s = true := by
  obtain ⟨args, hargs, rfl⟩ := Option.map_eq_some_iff.mp h
  rw [if_pos hurl] at hargs
  split_ifs at hargs
  obtain rfl := Option.some.inj hargs
  have hcli : validUTF8 form.transport.cliName = true := by
    cases form.transport <;> decide +kernel
  have hrole : validUTF8 (literal "--role") = true := by decide +kernel
  have hclient : validUTF8 (literal "client") = true := by decide +kernel
  have htransport : validUTF8 (literal "--transport") = true := by decide +kernel
  have hflag : validUTF8 (literal "--url") = true := by decide +kernel
  have hcodec : ∀ s ∈ [literal "--codec", literal "legacy"], validUTF8 s = true := by
    decide +kernel
  have hdebug : ∀ s ∈ [literal "--debug"], validUTF8 s = true := by decide +kernel
  refine List.forall_mem_append.mpr ⟨List.forall_mem_append.mpr ⟨List.forall_mem_append.mpr
    ⟨?_, ?_⟩, ?_⟩, ?_⟩
  · simp only [List.forall_mem_cons]
    exact ⟨hrole, hclient, htransport, hcli, nofun⟩
  · exact List.forall_mem_cons.mpr ⟨hflag, List.forall_mem_singleton.mpr hvalid⟩
  · split_ifs
    · exact hcodec
    · exact nofun
  · split_ifs
    · exact hdebug
    · exact nofun

end TunnelPayload

end OpenFlux.App
