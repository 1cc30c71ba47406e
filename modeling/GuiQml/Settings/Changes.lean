import GuiQml.Settings.RoundTrip

/-!
# The changes of a session

A change of the user's, as a value. One that is refused changes nothing, and one that is accepted touches
its setting, but for a location that is the one there already.
-/

namespace GuiQml.Settings

inductive CoreChange
  | listen (value : Bool)
  | natpmp (value : Bool)
  | server (value : Bool)
  | prune (value : Bool)
  | pruneSizeGB (value : Int)
  | proxyEnabled (value : Bool)
  | torEnabled (value : Bool)
  | proxyLocation (value : Str)
  | torLocation (value : Str)

def CoreChange.name : CoreChange → Name
  | .listen _ => .listen
  | .natpmp _ => .natpmp
  | .server _ => .server
  | .prune _ | .pruneSizeGB _ => .prune
  | .proxyEnabled _ | .proxyLocation _ => .proxy
  | .torEnabled _ | .torLocation _ => .onion

/-- The session after the change, and whether it was accepted. -/
def CoreChange.apply (api : CoreApi) (session : Session) : CoreChange → Session × Bool
  | .listen value => session.changeListen value
  | .natpmp value => session.changeNatpmp value
  | .server value => session.changeServer value
  | .prune value => session.changePrune value
  | .pruneSizeGB value => session.changePruneSizeGB value
  | .proxyEnabled value => session.changeProxyEnabled api value
  | .torEnabled value => session.changeTorEnabled api value
  | .proxyLocation value => session.changeProxyLocation api value
  | .torLocation value => session.changeTorLocation api value

variable {api : CoreApi}

/-! ## Refused changes -/

/-- What Core and Qt say of the default location of a proxy. -/
structure DefaultProxyValid (api : CoreApi) : Prop where
  not_space : ∀ c ∈ defaultProxyAddress, api.isSpace c = false
  split : api.splitHostPort defaultProxyAddress defaultProxyPort = (true, 9050, "127.0.0.1".toList)
  valid : api.proxyIsValid defaultProxyAddress defaultProxyPort = true

theorem DefaultProxyValid.plainCore : DefaultProxyValid plainCore where
  not_space _ hc := decide_eq_false fun heq => absurd (heq ▸ hc) (by decide : ' ' ∉ defaultProxyAddress)
  split := rfl
  valid := rfl

theorem proxyValidationError_default (h : DefaultProxyValid api) :
    proxyValidationError api defaultProxyAddress = "" := by
  have htrimmed : trimmed api defaultProxyAddress = defaultProxyAddress := by
    have h1 := h.not_space '1' (by decide)
    have h0 := h.not_space '0' (by decide)
    show ((['1', '2', '7', '.', '0', '.', '0', '.', '1', ':', '9', '0', '5', '0'].dropWhile _).reverse.dropWhile
      api.isSpace).reverse = _
    rw [List.dropWhile_cons_of_neg (by simp [h1])]
    show ((['0', '5', '0', '9', ':', '1', '.', '0', '.', '0', '.', '7', '2', '1'] : List Char).dropWhile
      api.isSpace).reverse = _
    rw [List.dropWhile_cons_of_neg (by simp [h0])]
    rfl
  unfold proxyValidationError
  simp only [htrimmed, h.split, h.valid]
  rfl

theorem changeValue_refused {α : Type} [DecidableEq α] {session : Session} {name : Name}
    {get : Values → α} {set : α → Values → Values} {value : α}
    (h : (session.changeValue name get set value).2 = false) :
    (session.changeValue name get set value).1 = session := by
  revert h
  unfold Session.changeValue
  split
  · exact fun _ => rfl
  · exact fun h => nomatch h

theorem changeEnabled_refused (hdefault : DefaultProxyValid api) {session : Session} {fields : Session.ProxyFields}
    (hset : ∀ v, fields.address (fields.setAddress defaultProxyAddress v) = defaultProxyAddress)
    {enabled : Bool} (h : (session.changeEnabled api fields enabled).2 = false) :
    (session.changeEnabled api fields enabled).1.m_values = session.m_values := by
  revert h
  fun_cases Session.changeEnabled api session fields enabled with
  | case1 => exact fun _ => rfl
  | case2 _ values hrefused =>
    -- The address that is refused is not the default one, so none was filled in.
    intro _
    by_cases hempty : enabled && (fields.address session.m_values).isEmpty
    · have hvalues : values = fields.setAddress defaultProxyAddress session.m_values := if_pos hempty
      rw [hvalues, hset, proxyValidationError_default hdefault] at hrefused
      simp at hrefused
    · exact if_neg hempty
  | case3 => exact fun h => nomatch h

theorem changeLocation_refused {session : Session} {fields : Session.ProxyFields} {location : Str}
    (h : (session.changeLocation api fields location).2 = false) :
    (session.changeLocation api fields location).1 = session := by
  revert h
  fun_cases Session.changeLocation api session fields location with
  | case1 => exact fun _ => rfl
  | case2 => exact fun h => nomatch h
  | case3 => exact fun h => nomatch h

theorem CoreChange.refused (hdefault : DefaultProxyValid api) {session : Session} {change : CoreChange}
    (h : (change.apply api session).2 = false) :
    (change.apply api session).1.m_values = session.m_values := by
  cases change with
  | listen | natpmp | server | prune => exact congrArg _ (changeValue_refused h)
  | pruneSizeGB value =>
    revert h
    dsimp only [CoreChange.apply, Session.changePruneSizeGB]
    split
    · exact fun _ => rfl
    · exact fun h => congrArg _ (changeValue_refused h)
  | proxyEnabled | torEnabled => exact changeEnabled_refused hdefault (fun _ => rfl) h
  | proxyLocation | torLocation => exact congrArg _ (changeLocation_refused h)

/-! ## What a change does -/

theorem sameSetting_refl (name : Name) (v : Values) : SameSetting name v v := by
  cases name with
  | prune | proxy | onion => exact ⟨rfl, rfl⟩
  | listen | natpmp | server => rfl
  | _ => trivial

theorem sameSetting_trans {name : Name} {a b c : Values} (hab : SameSetting name a b)
    (hbc : SameSetting name b c) : SameSetting name a c := by
  cases name with
  | prune | proxy | onion => exact ⟨hab.1.trans hbc.1, hab.2.trans hbc.2⟩
  | listen | natpmp | server => exact Eq.trans hab hbc
  | _ => trivial

theorem isTouched_markTouched (session : Session) (name other : Name) :
    (session.markTouched name).isTouched other = (decide (other = name) || session.isTouched other) := by
  rw [Bool.eq_iff_iff]
  simp [Session.isTouched, Session.markTouched, List.mem_insert_iff]

/-- What a change of the setting `name` makes of a session, and whether it was accepted. -/
inductive Changed (session : Session) (name : Name) : Session × Bool → Prop
  | same (accepted : Bool) : Changed session name (session, accepted)
  /-- A proxy that is not enabled may have its address filled in. -/
  | refused {values : Values} (hprune : name ≠ .prune) (hedit : session.canEdit name = true)
      (hothers : ∀ other ≠ name, SameSetting other values session.m_values) :
      Changed session name ({ session with m_values := values }, false)
  | touched {values : Values} (hedit : session.canEdit name = true)
      (hothers : ∀ other ≠ name, SameSetting other values session.m_values)
      (hchanged : ¬SameSetting name values session.m_values) :
      Changed session name ({ session.markTouched name with m_values := values }, true)

/-- The two values of a proxy are those of its setting and of no other. -/
structure Session.ProxyFields.Own (fields : Session.ProxyFields) : Prop where
  not_prune : fields.name ≠ .prune
  same : ∀ a b, SameSetting fields.name a b →
    fields.enabled a = fields.enabled b ∧ fields.address a = fields.address b
  address : ∀ address v, fields.address (fields.setAddress address v) = address ∧
    ∀ other ≠ fields.name, SameSetting other (fields.setAddress address v) v
  enabled : ∀ enabled v, fields.enabled (fields.setEnabled enabled v) = enabled ∧
    ∀ other ≠ fields.name, SameSetting other (fields.setEnabled enabled v) v

theorem own_proxyFields : Session.proxyFields.Own := by
  refine ⟨fun h => (by cases h), fun _ _ h => h, fun _ _ => ⟨rfl, fun other hne => ?_⟩,
    fun _ _ => ⟨rfl, fun other hne => ?_⟩⟩
  all_goals cases other <;> first | exact absurd rfl hne | exact trivial | rfl | exact ⟨rfl, rfl⟩

theorem own_torFields : Session.torFields.Own := by
  refine ⟨fun h => (by cases h), fun _ _ h => h, fun _ _ => ⟨rfl, fun other hne => ?_⟩,
    fun _ _ => ⟨rfl, fun other hne => ?_⟩⟩
  all_goals cases other <;> first | exact absurd rfl hne | exact trivial | rfl | exact ⟨rfl, rfl⟩

namespace Changed

variable {session : Session}

theorem not_refused {name : Name} {refused : Bool} (h : ¬(!session.canEdit name || refused) = true) :
    session.canEdit name = true ∧ ¬refused = true := by
  rw [Bool.or_eq_true, not_or] at h
  exact ⟨by simpa using h.1, h.2⟩

theorem changeValue {α : Type} [DecidableEq α] {name : Name} {get : Values → α}
    {set : α → Values → Values} {value : α}
    (hget : ∀ v, SameSetting name (set value v) v → value = get v)
    (h : ∀ other ≠ name, SameSetting other (set value session.m_values) session.m_values) :
    Changed session name (session.changeValue name get set value) := by
  unfold Session.changeValue
  split
  · exact .same false
  next hedit =>
    obtain ⟨hedit, hne⟩ := not_refused hedit
    exact .touched hedit h fun hsame => hne (decide_eq_true (hget _ hsame))

theorem changeLocation {fields : Session.ProxyFields} (hown : fields.Own) (location : Str) :
    Changed session fields.name (session.changeLocation api fields location) := by
  fun_cases Session.changeLocation api session fields location with
  | case1 => exact .same false
  | case2 => exact .same true
  | case3 location hedit hne =>
    obtain ⟨haddress, hothers⟩ := hown.address location session.m_values
    exact .touched (not_refused hedit).1 hothers fun hsame =>
      hne (haddress.symm.trans (hown.same _ _ hsame).2)

theorem changeEnabled {fields : Session.ProxyFields} (hown : fields.Own) (enabled : Bool) :
    Changed session fields.name (session.changeEnabled api fields enabled) := by
  have hvalues : ∀ other ≠ fields.name, SameSetting other
      (if enabled && (fields.address session.m_values).isEmpty then
        fields.setAddress defaultProxyAddress session.m_values else session.m_values) session.m_values := by
    intro other hne
    split
    · exact (hown.address _ _).2 other hne
    · exact sameSetting_refl ..
  fun_cases Session.changeEnabled api session fields enabled with
  | case1 => exact .same false
  | case2 hedit => exact .refused hown.not_prune (not_refused hedit).1 hvalues
  | case3 hedit values =>
    obtain ⟨hedit, hne⟩ := not_refused hedit
    obtain ⟨henabled, hothers⟩ := hown.enabled enabled values
    refine .touched hedit (fun other hne => sameSetting_trans (hothers other hne) (hvalues other hne))
      fun hsame => hne (decide_eq_true ?_)
    exact henabled.symm.trans (hown.same _ _ hsame).1

end Changed

theorem CoreChange.changed (session : Session) (change : CoreChange) :
    Changed session change.name (change.apply api session) := by
  cases change with
  | listen | natpmp | server | prune =>
    dsimp only [CoreChange.apply, Session.changeListen, Session.changeNatpmp, Session.changeServer,
      Session.changePrune]
    refine Changed.changeValue (fun _ h => by first | exact h | exact h.1) fun other hne => ?_
    cases other <;> first | exact absurd rfl hne | exact trivial | rfl | exact ⟨rfl, rfl⟩
  | pruneSizeGB size =>
    dsimp only [CoreChange.apply, Session.changePruneSizeGB]
    split
    · exact .same false
    · refine Changed.changeValue (fun _ h => h.2) fun other hne => ?_
      cases other <;> first | exact absurd rfl hne | exact trivial | rfl | exact ⟨rfl, rfl⟩
  | proxyEnabled enabled => exact Changed.changeEnabled own_proxyFields enabled
  | torEnabled enabled => exact Changed.changeEnabled own_torFields enabled
  | proxyLocation location => exact Changed.changeLocation own_proxyFields location
  | torLocation location => exact Changed.changeLocation own_torFields location

end GuiQml.Settings
