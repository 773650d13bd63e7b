import Dormouse.Relay.EnrollOffer

/-!
# Dormouse.Relay.EnrollOfferSound

**An offer is spent at most once and never lost**: where each published generation is,
whatever the installer publishes between the steps of a request.
-/

namespace Dormouse.Relay

open Terminal (Ms)

/-! ### Events -/

namespace EnrollEvent

/-- The generation that an event ends. -/
def closed : EnrollEvent → Option Nat
  | redeemed _ generation _ => some generation
  | invalidated _ generation => some generation
  | _ => none

/-- The generation that an enrollment was authorized by. -/
def enrolledOn : EnrollEvent → Option Nat
  | enrolled _ admission _ => admission.redeemed
  | _ => none

end EnrollEvent

/-- The claim of an offer that is neither ended nor given back. -/
def EnrollWait.holds : EnrollWait → Option JsString
  | verify name _ _ _ => some name
  | release name => some name
  | _ => none

namespace EnrollConfig

/-- No two enroll tokens have one digest. -/
def SeparatesTokens (config : EnrollConfig) : Prop :=
  ∀ a b, isEnrollToken a = true → isEnrollToken b = true → config.sha256 a = config.sha256 b →
    a = b

theorem secretEquals_trans {config : EnrollConfig} {a b c : JsString}
    (hab : config.secretEquals a b = true) (hbc : config.secretEquals b c = true) :
    config.secretEquals a c = true := by
  unfold secretEquals at *
  rw [beq_iff_eq] at *
  exact hab.trans hbc

theorem secretEquals_eq {config : EnrollConfig} {a b : JsString} (h : config.SeparatesTokens)
    (ha : isEnrollToken a = true) (hb : isEnrollToken b = true)
    (hab : config.secretEquals a b = true) : a = b :=
  h a b ha hb (eq_of_beq hab)

theorem isEnrollToken_of_parse {config : EnrollConfig} {text : JsString} {offer : EnrollmentOffer}
    (h : config.parseEnrollmentOffer text = some offer) : isEnrollToken offer.token = true := by
  obtain ⟨value, -, hoffer⟩ := Option.bind_eq_some_iff.1 h
  obtain ⟨origin, -, hoffer⟩ := Option.bind_eq_some_iff.1 hoffer
  obtain ⟨token, htoken, hoffer⟩ := Option.bind_eq_some_iff.1 hoffer
  obtain ⟨mintedAt, -, hoffer⟩ := Option.bind_eq_some_iff.1 hoffer
  cases hoffer
  exact (Option.filter_eq_some_iff.1 htoken).2

end EnrollConfig

namespace EnrollRelay

variable {config : EnrollConfig} {s s' : EnrollRelay} {request : EnrollRequest}
  {wait wait' : EnrollWait} {answer : EnrollAnswer} {file : OfferFile} {name text : JsString}
  {admission : Admission} {event : EnrollEvent}

/-- The generations that have ended. -/
def ended (s : EnrollRelay) : List Nat := s.history.filterMap EnrollEvent.closed

/-- The generations that authorized an enrollment. -/
def authorized (s : EnrollRelay) : List Nat := s.history.filterMap EnrollEvent.enrolledOn

/-! ### The invariant -/

/-- What is known of the offers, whoever is at work on them. -/
structure OffersKept (config : EnrollConfig) (s : EnrollRelay) : Prop where
  -- Every file is one that was published, and a generation says one thing.
  atPath : ∀ {file}, s.offer = some file →
    EnrollEvent.published file.generation file.text ∈ s.history
  atSpent : ∀ {name file}, s.spent.get name = some file →
    EnrollEvent.published file.generation file.text ∈ s.history
  issued : ∀ {generation text}, EnrollEvent.published generation text ∈ s.history →
    generation < s.generations
  once : ∀ {generation text text'}, EnrollEvent.published generation text ∈ s.history →
    EnrollEvent.published generation text' ∈ s.history → text = text'
  unconfigured : config.configured = false → s.generations = 0
  -- What is at the path has not ended, and ends once.
  live : ∀ {file}, s.offer = some file → file.generation ∉ s.ended
  endedOnce : s.ended.Nodup
  endedIssued : ∀ {generation}, generation ∈ s.ended → generation < s.generations
  redeemed : ∀ {n generation supplied}, EnrollEvent.redeemed n generation supplied ∈ s.history →
    EnrollEvent.claimed n generation ∈ s.history ∧
      ∃ text offer, EnrollEvent.published generation text ∈ s.history ∧
        config.parseEnrollmentOffer text = some offer ∧
        isEnrollToken supplied = true ∧ config.secretEquals supplied offer.token = true
  authorizedOnce : s.authorized.Nodup
  enrolled : ∀ {n admission offer}, EnrollEvent.enrolled n admission offer ∈ s.history →
    (∀ generation, admission.redeemed = some generation →
      ∃ supplied, EnrollEvent.redeemed n generation supplied ∈ s.history) ∧
    (admission.first = true → ∀ generation, offer = some generation →
      admission.cleared ≤ generation)

/-- A request that is past its gate. -/
structure Admitted (s : EnrollRelay) (request : EnrollRequest) (admission : Admission) : Prop where
  cleared : admission.cleared ≤ s.generations
  first : admission.first = true ↔ s.burrows = none
  newer : admission.first = true →
    ∀ file, s.offer = some file → admission.cleared ≤ file.generation
  redeemed : ∀ generation, admission.redeemed = some generation → admission.first = true ∧
    (∃ supplied, EnrollEvent.redeemed request.number generation supplied ∈ s.history) ∧
    generation ∉ s.authorized

/-- A request that has taken a file off the path, and not ended it. -/
structure Holds (s : EnrollRelay) (request : EnrollRequest) (name : JsString)
    (file : OfferFile) : Prop where
  get : s.spent.get name = some file
  claimed : EnrollEvent.claimed request.number file.generation ∈ s.history
  live : file.generation ∉ s.ended
  newer : ∀ other, s.offer = some other → file.generation < other.generation

/-- What is known at each point of a request. -/
def StageOk (config : EnrollConfig) (s : EnrollRelay) (request : EnrollRequest) :
    EnrollWait → Prop
  | .exists => True
  | .invalidate rejects => rejects = false → s.burrows = none
  | .discard _ rejects admission => rejects = false → s.Admitted request admission
  | .read supplied => s.burrows = none ∧ isEnrollToken supplied = true
  | .claim supplied verified => s.burrows = none ∧ isEnrollToken supplied = true ∧
      config.secretEquals supplied verified = true
  | .verify name supplied verified cleared => s.burrows = none ∧
      isEnrollToken supplied = true ∧ config.secretEquals supplied verified = true ∧
      cleared ≤ s.generations ∧
      (∀ other, s.offer = some other → cleared ≤ other.generation) ∧
      ∃ file, s.Holds request name file
  | .release name => ∃ file, s.Holds request name file
  | .released _ => True
  | .spend _ admission => s.Admitted request admission
  | .list admission => s.Admitted request admission
  | .write admission => s.Admitted request admission

/-- The latest offer is at the path, or in the hands of the request that claimed it, or ended. -/
def Latest (s : EnrollRelay) : Prop :=
  ∀ generation, generation + 1 = s.generations →
    (∃ file, s.offer = some file ∧ file.generation = generation) ∨
    (∃ request wait name file, s.active = some (request, wait) ∧ wait.holds = some name ∧
      s.spent.get name = some file ∧ file.generation = generation) ∨
    generation ∈ s.ended

/-- The invariant of enrollment. -/
structure Sound (config : EnrollConfig) (s : EnrollRelay) : Prop where
  kept : OffersKept config s
  stage : ∀ {request wait}, s.active = some (request, wait) → StageOk config s request wait
  latest : s.Latest

/-! ### What the parts say of each other -/

theorem mem_ended_of_mem {generation : Nat} (h : event ∈ s.history)
    (hclosed : event.closed = some generation) : generation ∈ s.ended :=
  List.mem_filterMap.2 ⟨event, h, hclosed⟩

theorem mem_ended_record {generation : Nat} :
    generation ∈ (s.record event).ended ↔
      generation ∈ s.ended ∨ event.closed = some generation := by
  unfold ended record
  simp

theorem mem_authorized_record {generation : Nat} :
    generation ∈ (s.record event).authorized ↔
      generation ∈ s.authorized ∨ event.enrolledOn = some generation := by
  unfold authorized record
  simp

theorem mem_record {other : EnrollEvent} :
    other ∈ (s.record event).history ↔ other ∈ s.history ∨ other = event := by
  unfold record
  simp

/-- An offer that authorized an enrollment was redeemed before. -/
theorem OffersKept.ended_of_authorized (h : OffersKept config s) {generation : Nat}
    (hmem : generation ∈ s.authorized) : generation ∈ s.ended := by
  obtain ⟨event, hevent, hon⟩ := List.mem_filterMap.1 hmem
  cases event with
  | enrolled n admission offer =>
    obtain ⟨supplied, hredeemed⟩ := (h.enrolled hevent).1 generation hon
    exact mem_ended_of_mem hredeemed rfl
  | published | claimed | redeemed | invalidated => cases hon

/-! ### Rules for the offers -/

namespace OffersKept

theorem lt_of_offer (h : OffersKept config s) (hoffer : s.offer = some file) :
    file.generation < s.generations := h.issued (h.atPath hoffer)

theorem offer_of_unconfigured (h : OffersKept config s) (hnot : config.configured = false) :
    s.offer = none := by
  cases hoffer : s.offer with
  | none => rfl
  | some file =>
    have hlt := h.lt_of_offer hoffer
    rw [h.unconfigured hnot] at hlt
    exact absurd hlt (Nat.not_lt_zero _)

/-- Only files, generations and events matter. -/
theorem of_same (h : OffersKept config s) (hoffer : s'.offer = s.offer)
    (hspent : ∀ {name file}, s'.spent.get name = some file → s.spent.get name = some file)
    (hgenerations : s'.generations = s.generations) (hhistory : s'.history = s.history) :
    OffersKept config s' where
  atPath := by rw [hoffer, hhistory]; exact h.atPath
  atSpent hget := by rw [hhistory]; exact h.atSpent (hspent hget)
  issued := by rw [hgenerations, hhistory]; exact h.issued
  once := by rw [hhistory]; exact h.once
  unconfigured := by rw [hgenerations]; exact h.unconfigured
  live := by unfold ended; rw [hoffer, hhistory]; exact h.live
  endedOnce := by unfold ended; rw [hhistory]; exact h.endedOnce
  endedIssued := by unfold ended; rw [hgenerations, hhistory]; exact h.endedIssued
  redeemed := by rw [hhistory]; exact h.redeemed
  authorizedOnce := by unfold authorized; rw [hhistory]; exact h.authorizedOnce
  enrolled := by rw [hhistory]; exact h.enrolled

/-- A new offer is later than all. -/
theorem publish (h : OffersKept config s) (hconfigured : config.configured = true) (text : JsString) :
    OffersKept config (s.publish text) where
  atPath hoffer := by
    cases hoffer
    exact mem_record.2 (.inr rfl)
  atSpent hget := mem_record.2 (.inl (h.atSpent hget))
  issued hmem := by
    rcases mem_record.1 hmem with hold | hnew
    · exact Nat.lt_succ_of_lt (h.issued hold)
    · cases hnew
      exact Nat.lt_succ_self _
  once hmem hmem' := by
    rcases mem_record.1 hmem with hold | hnew
    · rcases mem_record.1 hmem' with hold' | hnew'
      · exact h.once hold hold'
      · cases hnew'
        exact absurd (h.issued hold) (Nat.lt_irrefl _)
    rcases mem_record.1 hmem' with hold' | hnew'
    · cases hnew
      exact absurd (h.issued hold') (Nat.lt_irrefl _)
    · cases hnew
      cases hnew'
      rfl
  unconfigured hnot := by
    rw [hconfigured] at hnot
    cases hnot
  live hoffer hmem := by
    cases hoffer
    rcases mem_ended_record.1 hmem with hold | hnew
    · exact Nat.lt_irrefl _ (h.endedIssued hold)
    · cases hnew
  endedOnce := by
    unfold ended EnrollRelay.publish record
    rw [List.filterMap_append]
    exact (List.append_nil _).symm ▸ h.endedOnce
  endedIssued hmem := by
    rcases mem_ended_record.1 hmem with hold | hnew
    · exact Nat.lt_succ_of_lt (h.endedIssued hold)
    · cases hnew
  redeemed hmem := by
    rcases mem_record.1 hmem with hold | hnew
    · obtain ⟨hclaimed, text, offer, hpublished, hoffer⟩ := h.redeemed hold
      exact ⟨mem_record.2 (.inl hclaimed), text, offer, mem_record.2 (.inl hpublished), hoffer⟩
    · cases hnew
  authorizedOnce := by
    unfold authorized EnrollRelay.publish record
    rw [List.filterMap_append]
    exact (List.append_nil _).symm ▸ h.authorizedOnce
  enrolled hmem := by
    rcases mem_record.1 hmem with hold | hnew
    · refine ⟨fun generation hon => ?_, (h.enrolled hold).2⟩
      obtain ⟨supplied, hredeemed⟩ := (h.enrolled hold).1 generation hon
      exact ⟨supplied, mem_record.2 (.inl hredeemed)⟩
    · cases hnew

/-- A file is renamed from the path. -/
theorem take (h : OffersKept config s) (hoffer : s.offer = some file) (name : JsString) :
    OffersKept config { s with offer := none, spent := s.spent.set name file } :=
  { h with
    atPath := nofun
    atSpent {name' file'} hget := by
      change (s.spent.set name file).get name' = some file' at hget
      rw [InsertionMap.get_set] at hget
      split at hget
      · cases hget
        exact h.atPath hoffer
      · exact h.atSpent hget
    live := nofun }

/-- A file that has not ended is linked back to the path. -/
theorem restore (h : OffersKept config s)
    (hget : s.spent.get name = some file) (hlive : file.generation ∉ s.ended) :
    OffersKept config { s with offer := some file } :=
  { h with
    atPath hoffer := by
      cases hoffer
      exact h.atSpent hget
    live hoffer := by
      cases hoffer
      exact hlive }

/-- What an event other than a publication has to satisfy. -/
structure Fits (config : EnrollConfig) (s : EnrollRelay) (event : EnrollEvent) : Prop where
  published : ∀ generation text, event ≠ .published generation text
  closed : ∀ generation, event.closed = some generation →
    generation ∉ s.ended ∧ generation < s.generations ∧
      ∀ file, s.offer = some file → file.generation ≠ generation
  redeemed : ∀ n generation supplied, event = .redeemed n generation supplied →
    EnrollEvent.claimed n generation ∈ s.history ∧
      ∃ text offer, EnrollEvent.published generation text ∈ s.history ∧
        config.parseEnrollmentOffer text = some offer ∧
        isEnrollToken supplied = true ∧ config.secretEquals supplied offer.token = true
  enrolledOn : ∀ generation, event.enrolledOn = some generation → generation ∉ s.authorized
  enrolled : ∀ n admission offer, event = .enrolled n admission offer →
    (∀ generation, admission.redeemed = some generation →
      ∃ supplied, EnrollEvent.redeemed n generation supplied ∈ s.history) ∧
    (admission.first = true → ∀ generation, offer = some generation →
      admission.cleared ≤ generation)

/-- An event that fits is recorded. -/
theorem record (h : OffersKept config s) (hfits : Fits config s event) :
    OffersKept config (s.record event) where
  atPath hoffer := mem_record.2 (.inl (h.atPath hoffer))
  atSpent hget := mem_record.2 (.inl (h.atSpent hget))
  issued hmem :=
    (mem_record.1 hmem).elim h.issued fun hnew => absurd hnew.symm (hfits.published _ _)
  once hmem hmem' := by
    rcases mem_record.1 hmem with hold | hnew
    · rcases mem_record.1 hmem' with hold' | hnew'
      · exact h.once hold hold'
      · exact absurd hnew'.symm (hfits.published _ _)
    · exact absurd hnew.symm (hfits.published _ _)
  unconfigured := h.unconfigured
  live hoffer hmem := by
    rcases mem_ended_record.1 hmem with hold | hnew
    · exact h.live hoffer hold
    · exact (hfits.closed _ hnew).2.2 _ hoffer rfl
  endedOnce := by
    unfold ended EnrollRelay.record
    rw [List.filterMap_append, List.nodup_append]
    refine ⟨h.endedOnce, ?_, ?_⟩
    · cases hclosed : event.closed <;> simp [hclosed]
    · rintro generation hold other hnew rfl
      obtain ⟨event', hevent', hclosed⟩ := List.mem_filterMap.1 hnew
      cases List.mem_singleton.1 hevent'
      exact (hfits.closed _ hclosed).1 hold
  endedIssued hmem :=
    (mem_ended_record.1 hmem).elim h.endedIssued fun hnew => (hfits.closed _ hnew).2.1
  redeemed hmem := by
    rcases mem_record.1 hmem with hold | hnew
    · obtain ⟨hclaimed, text, offer, hpublished, hoffer⟩ := h.redeemed hold
      exact ⟨mem_record.2 (.inl hclaimed), text, offer, mem_record.2 (.inl hpublished), hoffer⟩
    · obtain ⟨hclaimed, text, offer, hpublished, hoffer⟩ := hfits.redeemed _ _ _ hnew.symm
      exact ⟨mem_record.2 (.inl hclaimed), text, offer, mem_record.2 (.inl hpublished), hoffer⟩
  authorizedOnce := by
    unfold authorized EnrollRelay.record
    rw [List.filterMap_append, List.nodup_append]
    refine ⟨h.authorizedOnce, ?_, ?_⟩
    · cases hon : event.enrolledOn <;> simp [hon]
    · rintro generation hold other hnew rfl
      obtain ⟨event', hevent', hon⟩ := List.mem_filterMap.1 hnew
      cases List.mem_singleton.1 hevent'
      exact hfits.enrolledOn _ hon hold
  enrolled hmem := by
    have hboth := (mem_record.1 hmem).elim h.enrolled fun hnew => hfits.enrolled _ _ _ hnew.symm
    refine ⟨fun generation hon => ?_, hboth.2⟩
    obtain ⟨supplied, hredeemed⟩ := hboth.1 generation hon
    exact ⟨supplied, mem_record.2 (.inl hredeemed)⟩

end OffersKept

/-! ### Rules for the request -/

theorem Admitted.of_same (h : s.Admitted request admission) (hoffer : s'.offer = s.offer)
    (hgenerations : s'.generations = s.generations)
    (hburrows : s.burrows = none ↔ s'.burrows = none)
    (hhistory : s'.history = s.history) : s'.Admitted request admission where
  cleared := hgenerations ▸ h.cleared
  first := h.first.trans hburrows
  newer := by rw [hoffer]; exact h.newer
  redeemed := by unfold authorized; rw [hhistory]; exact h.redeemed

theorem Holds.of_same (h : s.Holds request name file) (hoffer : s'.offer = s.offer)
    (hspent : s'.spent.get name = s.spent.get name) (hhistory : s'.history = s.history) :
    s'.Holds request name file where
  get := hspent.trans h.get
  claimed := hhistory ▸ h.claimed
  live := by unfold ended; rw [hhistory]; exact h.live
  newer := by rw [hoffer]; exact h.newer

theorem StageOk.of_same (h : StageOk config s request wait) (hoffer : s'.offer = s.offer)
    (hspent : ∀ name, wait.holds = some name → s'.spent.get name = s.spent.get name)
    (hgenerations : s'.generations = s.generations)
    (hburrows : s.burrows = none ↔ s'.burrows = none) (hhistory : s'.history = s.history) :
    StageOk config s' request wait := by
  cases wait with
  | «exists» | released => trivial
  | invalidate rejects => exact fun hrejects => hburrows.1 (h hrejects)
  | discard name rejects admission =>
    exact fun hrejects => (h hrejects).of_same hoffer hgenerations hburrows hhistory
  | read supplied => exact ⟨hburrows.1 h.1, h.2⟩
  | claim supplied verified => exact ⟨hburrows.1 h.1, h.2⟩
  | verify name supplied verified cleared =>
    obtain ⟨hnone, htoken, hequals, hcleared, hnewer, file, hholds⟩ := h
    exact ⟨hburrows.1 hnone, htoken, hequals, hgenerations ▸ hcleared, hoffer ▸ hnewer, file,
      hholds.of_same hoffer (hspent name rfl) hhistory⟩
  | release name =>
    obtain ⟨file, hholds⟩ := h
    exact ⟨file, hholds.of_same hoffer (hspent name rfl) hhistory⟩
  | spend name admission => exact Admitted.of_same h hoffer hgenerations hburrows hhistory
  | list admission => exact Admitted.of_same h hoffer hgenerations hburrows hhistory
  | write admission => exact Admitted.of_same h hoffer hgenerations hburrows hhistory

/-- Who is past the gate stays past it when a new offer is published. -/
theorem Admitted.publish (h : s.Admitted request admission) (text : JsString) :
    (s.publish text).Admitted request admission where
  cleared := Nat.le_succ_of_le h.cleared
  first := h.first
  newer _ file hoffer := by
    cases hoffer
    exact h.cleared
  redeemed generation hredeemed := by
    obtain ⟨hfirst, ⟨supplied, hmem⟩, hnot⟩ := h.redeemed generation hredeemed
    refine ⟨hfirst, ⟨supplied, mem_record.2 (.inl hmem)⟩, fun hon => ?_⟩
    rcases mem_authorized_record.1 hon with hold | hnew
    · exact hnot hold
    · cases hnew

theorem Holds.publish (h : s.Holds request name file) (hkept : OffersKept config s)
    (text : JsString) : (s.publish text).Holds request name file where
  get := h.get
  claimed := mem_record.2 (.inl h.claimed)
  live hmem := by
    rcases mem_ended_record.1 hmem with hold | hnew
    · exact h.live hold
    · cases hnew
  newer other hoffer := by
    cases hoffer
    exact hkept.issued (hkept.atSpent h.get)

theorem StageOk.publish (h : StageOk config s request wait) (hkept : OffersKept config s)
    (text : JsString) : StageOk config (s.publish text) request wait := by
  cases wait with
  | «exists» | released => trivial
  | invalidate | read | claim => exact h
  | discard name rejects admission => exact fun hrejects => (h hrejects).publish text
  | verify name supplied verified cleared =>
    obtain ⟨hnone, htoken, hequals, hcleared, -, file, hholds⟩ := h
    refine ⟨hnone, htoken, hequals, Nat.le_succ_of_le hcleared, fun other hoffer => ?_, file,
      hholds.publish hkept text⟩
    cases hoffer
    exact hcleared
  | release name =>
    obtain ⟨file, hholds⟩ := h
    exact ⟨file, hholds.publish hkept text⟩
  | spend name admission => exact Admitted.publish h text
  | list admission => exact Admitted.publish h text
  | write admission => exact Admitted.publish h text

/-! ### Rules for the whole -/

/-- No request has an offer in its hands. -/
theorem Latest.elsewhere (h : s.Latest)
    (hnot : ∀ request wait, s.active = some (request, wait) → wait.holds = none) {generation : Nat}
    (hlast : generation + 1 = s.generations) :
    (∃ file, s.offer = some file ∧ file.generation = generation) ∨ generation ∈ s.ended := by
  rcases h generation hlast with hpath | ⟨request, wait, name, file, hactive, hholds, -⟩ | hended
  · exact .inl hpath
  · rw [hnot request wait hactive] at hholds
    cases hholds
  · exact .inr hended

theorem Latest.of_elsewhere
    (h : ∀ generation, generation + 1 = s.generations →
      (∃ file, s.offer = some file ∧ file.generation = generation) ∨ generation ∈ s.ended) :
    s.Latest :=
  fun generation hlast => (h generation hlast).elim .inl fun hended => .inr (.inr hended)

namespace Sound

theorem only_active {old : EnrollWait} (hactive : s.active = some (request, old))
    (hholds : old.holds = none) :
    ∀ request wait, s.active = some (request, wait) → wait.holds = none := by
  intro request' wait' hactive'
  cases hactive.symm.trans hactive'
  exact hholds

/-- A request that has no offer in its hands goes on. -/
theorem goOn (h : Sound config s)
    (hnot : ∀ request wait, s.active = some (request, wait) → wait.holds = none)
    (hstage : StageOk config s request wait) : Sound config (s.next request wait) where
  kept := h.kept.of_same rfl id rfl rfl
  stage hactive := by
    cases hactive
    exact hstage.of_same rfl (fun _ _ => rfl) rfl .rfl rfl
  latest := .of_elsewhere fun _ hlast => h.latest.elsewhere hnot hlast

/-- A request that has no offer in its hands is done. -/
theorem finish (h : Sound config s)
    (hnot : ∀ request wait, s.active = some (request, wait) → wait.holds = none) :
    Sound config (s.done request answer) where
  kept := h.kept.of_same rfl id rfl rfl
  stage := nofun
  latest := .of_elsewhere fun _ hlast => h.latest.elsewhere hnot hlast

theorem publish (h : Sound config s) (hconfigured : config.configured = true) (text : JsString) :
    Sound config (s.publish text) where
  kept := h.kept.publish hconfigured text
  stage hactive := (h.stage hactive).publish h.kept text
  latest generation hlast := .inl ⟨_, rfl, (Nat.succ.inj hlast).symm⟩

theorem enqueue (h : Sound config s) (credential : EnrollCredential) :
    Sound config (s.enqueue credential) where
  kept := h.kept.of_same rfl id rfl rfl
  stage hactive := (h.stage hactive).of_same rfl (fun _ _ => rfl) rfl .rfl rfl
  latest := h.latest

theorem editBurrows (h : Sound config s) (rows : Nat) : Sound config (s.editBurrows rows) where
  kept := h.kept.of_same rfl id rfl rfl
  stage hactive := (h.stage hactive).of_same rfl (fun _ _ => rfl) rfl
    Option.map_eq_none_iff.symm rfl
  latest := h.latest

theorem takeMutex (h : Sound config s) : Sound config s.takeMutex := by
  unfold EnrollRelay.takeMutex
  split
  · next request queue hactive hqueue =>
      have hsame : Sound config { s with queue := queue } :=
        { kept := h.kept.of_same rfl id rfl rfl
          stage := fun hactive => (h.stage hactive).of_same rfl (fun _ _ => rfl) rfl .rfl rfl
          latest := h.latest }
      refine hsame.goOn (fun request wait hsome => ?_) trivial
      cases hactive.symm.trans hsome
  · exact h

/-- What a request that is past the password gate may assume. -/
theorem admitted_password (hkept : OffersKept config s) (hnone : s.burrows = none)
    (hoffer : s.offer = none) : s.Admitted request ⟨true, none, s.generations⟩ where
  cleared := Nat.le_refl _
  first := ⟨fun _ => hnone, fun _ => rfl⟩
  newer _ file hsome := by cases hoffer.symm.trans hsome
  redeemed := nofun

theorem existsAnswered (h : Sound config s) (stats : Bool) :
    Sound config (s.existsAnswered config stats) := by
  unfold EnrollRelay.existsAnswered
  split
  · next request hactive =>
      have hnot := only_active hactive rfl
      split
      · exact h.finish hnot
      split
      · split
        · exact h.goOn hnot nofun
        · exact h.finish hnot
      · next supplied hcredential hnone =>
          split
          · exact h.finish hnot
          · split
            · exact h.finish hnot
            · next htoken => exact h.goOn hnot ⟨hnone, Bool.eq_true_of_not_eq_false htoken⟩
      · next hcredential hnone =>
          split
          · exact h.goOn hnot fun _ => hnone
          · next hconfigured =>
              have hoffer := h.kept.offer_of_unconfigured (Bool.eq_false_of_not_eq_true hconfigured)
              exact h.goOn hnot (admitted_password h.kept hnone hoffer)
      next hcredential hburrows =>
        have hadmitted : s.Admitted request ⟨false, none, s.generations⟩ :=
          { cleared := Nat.le_refl _
            first := by rw [hburrows]; exact ⟨nofun, nofun⟩
            newer := nofun
            redeemed := nofun }
        exact h.goOn hnot hadmitted
  · exact h

theorem offerInvalidated (h : Sound config s) (name : JsString) (renames : Bool) :
    Sound config (s.offerInvalidated name renames) := by
  unfold EnrollRelay.offerInvalidated
  split
  · next request rejects hactive =>
      have hnot := only_active hactive rfl
      split
      · exact h.finish hnot
      split
      · next hoffer =>
          split
          · exact h.finish hnot
          · next hrejects =>
              have hnone := h.stage hactive (Bool.eq_false_of_not_eq_true hrejects)
              exact h.goOn hnot (admitted_password h.kept hnone hoffer)
      next file hoffer =>
        have hfits : OffersKept.Fits config
            { s with offer := none, spent := s.spent.set name file }
            (.invalidated request.number file.generation) :=
          { published := nofun
            closed := fun generation hclosed => by
              cases hclosed
              exact ⟨h.kept.live hoffer, h.kept.lt_of_offer hoffer, nofun⟩
            redeemed := nofun
            enrolledOn := nofun
            enrolled := nofun }
        have hkept := (h.kept.take hoffer name).record hfits
        refine ⟨hkept.of_same rfl id rfl rfl, fun hactive' => ?_, .of_elsewhere ?_⟩
        · cases hactive'
          exact fun hrejects =>
            (admitted_password hkept (h.stage hactive hrejects) rfl).of_same rfl rfl .rfl rfl
        · intro generation hlast
          refine .inr (mem_ended_record.2 ?_)
          rcases h.latest.elsewhere hnot hlast with ⟨file', hfile', hsame⟩ | hended
          · cases hoffer.symm.trans hfile'
            exact .inr (congrArg some hsame)
          · exact .inl hended
  · exact h

theorem offerRead (h : Sound config s) (reads : Bool) (now : Ms) :
    Sound config (s.offerRead config reads now) := by
  unfold EnrollRelay.offerRead
  split
  · next request supplied hactive =>
      have hnot := only_active hactive rfl
      obtain ⟨hnone, htoken⟩ := h.stage hactive
      split
      · exact h.finish hnot
      next offer hparse =>
        split
        · exact h.finish hnot
        · next hchecks =>
            have hequals := Bool.eq_true_of_not_eq_false fun hne => hchecks (.inr hne)
            exact h.goOn hnot ⟨hnone, htoken, hequals⟩
  · exact h

theorem offerClaimed (h : Sound config s) (name : JsString) (renames : Bool) :
    Sound config (s.offerClaimed name renames) := by
  unfold EnrollRelay.offerClaimed
  split
  · next request supplied verified hactive =>
      have hnot := only_active hactive rfl
      obtain ⟨hnone, htoken, hequals⟩ := h.stage hactive
      split
      · exact h.finish hnot
      split
      · exact h.finish hnot
      next file hoffer =>
        have hfits : OffersKept.Fits config
            { s with offer := none, spent := s.spent.set name file }
            (.claimed request.number file.generation) :=
          { published := nofun, closed := nofun, redeemed := nofun, enrolledOn := nofun
            enrolled := nofun }
        have hkept := (h.kept.take hoffer name).record hfits
        refine ⟨hkept.of_same rfl id rfl rfl, fun hactive' => ?_, fun generation hlast => ?_⟩
        · cases hactive'
          refine ⟨hnone, htoken, hequals, Nat.le_refl _, nofun, file, ?_⟩
          exact
            { get := InsertionMap.get_set_self _ _ _
              claimed := mem_record.2 (.inr rfl)
              live := fun hended => (mem_ended_record.1 hended).elim (h.kept.live hoffer) nofun
              newer := nofun }
        · rcases h.latest.elsewhere hnot hlast with ⟨file', hfile', hsame⟩ | hended
          · cases hoffer.symm.trans hfile'
            exact .inr (.inl ⟨request, _, name, file, rfl, rfl,
              InsertionMap.get_set_self _ _ _, hsame⟩)
          · exact .inr (.inr (mem_ended_record.2 (.inl hended)))
  · exact h

/-- A claim is to be given back. -/
theorem giveBack (h : Sound config s) {supplied verified : JsString} {cleared : Nat}
    (hactive : s.active = some (request, .verify name supplied verified cleared)) :
    Sound config (s.next request (.release name)) where
  kept := h.kept.of_same rfl id rfl rfl
  stage hactive' := by
    cases hactive'
    obtain ⟨-, -, -, -, -, file, hholds⟩ := h.stage hactive
    exact ⟨file, hholds.of_same rfl rfl rfl⟩
  latest generation hlast := by
    rcases h.latest generation hlast with hpath | ⟨request', wait, name', file, hsome, hholds, hfile⟩ |
      hended
    · exact .inl hpath
    · cases hactive.symm.trans hsome
      cases hholds
      exact .inr (.inl ⟨request, _, name, file, rfl, rfl, hfile⟩)
    · exact .inr (.inr hended)

theorem claimRead (h : Sound config s) (reads : Bool) : Sound config (s.claimRead config reads) := by
  unfold EnrollRelay.claimRead
  split
  · next request name supplied verified cleared hactive =>
      split
      · exact h.giveBack hactive
      next file hread =>
        split
        · exact h.giveBack hactive
        next claimed hparse =>
          split
          · next hsame =>
              obtain ⟨hnone, htoken, hequals, hcleared, hnewer, held, hholds⟩ := h.stage hactive
              have hget : s.spent.get name = some file := by
                split at hread
                · exact hread
                · cases hread
              cases hholds.get.symm.trans hget
              have hpublished := h.kept.atSpent hget
              have hfits : OffersKept.Fits config s
                  (.redeemed request.number file.generation supplied) :=
                { published := fun _ _ h => by cases h
                  closed := fun generation hclosed => by
                    cases hclosed
                    exact ⟨hholds.live, h.kept.issued hpublished,
                      fun other hoffer => (Nat.ne_of_lt (hholds.newer other hoffer)).symm⟩
                  redeemed := fun n generation supplied' heq => by
                    cases heq
                    exact ⟨hholds.claimed, file.text, claimed, hpublished, hparse, htoken,
                      EnrollConfig.secretEquals_trans hequals hsame⟩
                  enrolledOn := fun _ h => by cases h
                  enrolled := (fun _ _ _ h => by cases h) }
              have hkept := h.kept.record hfits
              refine ⟨hkept.of_same rfl id rfl rfl, fun hactive' => ?_, .of_elsewhere ?_⟩
              · cases hactive'
                exact
                  { cleared := hcleared
                    first := ⟨fun _ => hnone, fun _ => rfl⟩
                    newer := fun _ => hnewer
                    redeemed := fun generation heq => by
                      cases heq
                      refine ⟨rfl, ⟨supplied, mem_record.2 (.inr rfl)⟩, fun hon => ?_⟩
                      rcases mem_authorized_record.1 hon with hold | hnew
                      · exact hholds.live (h.kept.ended_of_authorized hold)
                      · cases hnew }
              · intro generation hlast
                rcases h.latest generation hlast with
                  hpath | ⟨request', wait, name', file', hsome, hheld, hfile', rfl⟩ | hended
                · exact .inl hpath
                · cases hactive.symm.trans hsome
                  cases hheld
                  cases hget.symm.trans hfile'
                  exact .inr (mem_ended_record.2 (.inr rfl))
                · exact .inr (mem_ended_record.2 (.inl hended))
          · exact h.giveBack hactive
  · exact h

theorem claimReleased (h : Sound config s) : Sound config s.claimReleased := by
  unfold EnrollRelay.claimReleased
  split
  · next request name hactive =>
      obtain ⟨held, hholds⟩ := h.stage hactive
      split
      · next file hoffer hget =>
          cases hholds.get.symm.trans hget
          have hkept := h.kept.restore hget hholds.live
          refine ⟨hkept.of_same rfl id rfl rfl, fun hactive' => ?_, .of_elsewhere ?_⟩
          · cases hactive'
            trivial
          · intro generation hlast
            rcases h.latest generation hlast with
              ⟨file', hfile', -⟩ | ⟨request', wait, name', file', hsome, hheld, hfile', hsame⟩ | hended
            · cases hoffer.symm.trans hfile'
            · cases hactive.symm.trans hsome
              cases hheld
              cases hget.symm.trans hfile'
              exact .inl ⟨_, rfl, hsame⟩
            · exact .inr hended
      · next hother =>
          -- The claim is there, so it is the path that has a newer offer.
          rcases hoffer : s.offer with _ | newer
          · exact absurd hholds.get (hother held hoffer)
          refine ⟨h.kept.of_same rfl id rfl rfl, fun hactive' => ?_, .of_elsewhere ?_⟩
          · cases hactive'
            trivial
          · intro generation hlast
            rcases h.latest generation hlast with
              hpath | ⟨request', wait, name', file', hsome, hheld, hfile', hsame⟩ | hended
            · exact .inl hpath
            · cases hactive.symm.trans hsome
              cases hheld
              cases hholds.get.symm.trans hfile'
              have hlt : generation < newer.generation := hsame ▸ hholds.newer newer hoffer
              have hissued : newer.generation < generation + 1 :=
                hlast ▸ h.kept.lt_of_offer hoffer
              omega
            · exact .inr hended
  · exact h

/-- Some claim is unlinked, or stays, while nobody has an offer in hand. -/
theorem unlink (h : Sound config s)
    (hnot : ∀ request wait, s.active = some (request, wait) → wait.holds = none)
    (unlinks : Bool) (name : JsString) :
    Sound config (if unlinks then { s with spent := s.spent.delete name } else s) := by
  split
  · refine ⟨h.kept.of_same rfl (fun hget => ?_) rfl rfl, fun {request wait} hactive => ?_,
      .of_elsewhere fun generation hlast => h.latest.elsewhere hnot hlast⟩
    · change (s.spent.delete name).get _ = _ at hget
      exact (InsertionMap.get_of_delete hget).2
    · refine (h.stage hactive).of_same rfl (fun held hheld => ?_) rfl .rfl rfl
      rw [hnot request wait hactive] at hheld
      cases hheld
  · exact h

theorem active_unlink (unlinks : Bool) (name : JsString) :
    (if unlinks then { s with spent := s.spent.delete name } else s).active = s.active := by
  cases unlinks <;> rfl

theorem claimUnlinked (h : Sound config s) (unlinks : Bool) :
    Sound config (s.claimUnlinked unlinks) := by
  unfold EnrollRelay.claimUnlinked
  split
  · next request wait hactive =>
      dsimp only
      split
      · next name rejects admission =>
          have hnot := only_active hactive rfl
          have hclean := h.unlink hnot unlinks name
          have hsame := (active_unlink unlinks name).trans hactive
          split
          · exact hclean.finish (only_active hsame rfl)
          · next hrejects =>
              have hadmitted := hclean.stage hsame (Bool.eq_false_of_not_eq_true hrejects)
              exact hclean.goOn (only_active hsame rfl) hadmitted
      · next name =>
          have hsame := (active_unlink unlinks name).trans hactive
          exact (h.unlink (only_active hactive rfl) unlinks name).finish (only_active hsame rfl)
      · next name admission =>
          have hnot := only_active hactive rfl
          have hclean := h.unlink hnot unlinks name
          have hsame := (active_unlink unlinks name).trans hactive
          have hadmitted : Admitted _ request admission := hclean.stage hsame
          exact hclean.goOn (only_active hsame rfl) hadmitted
      · exact h
  · exact h

theorem burrowsListed (h : Sound config s) (reads : Bool) :
    Sound config (s.burrowsListed reads) := by
  unfold EnrollRelay.burrowsListed
  split
  · next request admission hactive =>
      have hnot := only_active hactive rfl
      split
      · exact h.finish hnot
      · split
        · exact h.finish hnot
        · have hadmitted : s.Admitted request admission := h.stage hactive
          exact h.goOn hnot hadmitted
  · exact h

theorem burrowWritten (h : Sound config s) (writes : Bool) :
    Sound config (s.burrowWritten writes) := by
  unfold EnrollRelay.burrowWritten
  split
  · next request admission hactive =>
      have hnot := only_active hactive rfl
      have hadmitted : s.Admitted request admission := h.stage hactive
      split
      · have hfits : OffersKept.Fits config s
            (.enrolled request.number admission (s.offer.map OfferFile.generation)) :=
          { published := nofun
            closed := nofun
            redeemed := nofun
            enrolledOn := fun generation hon => (hadmitted.redeemed generation hon).2.2
            enrolled := fun n admission' offer heq => by
              cases heq
              refine ⟨fun generation hon => (hadmitted.redeemed generation hon).2.1,
                fun hfirst generation hsome => ?_⟩
              obtain ⟨file, hoffer, rfl⟩ := Option.map_eq_some_iff.1 hsome
              exact hadmitted.newer hfirst file hoffer }
        have hkept := h.kept.record hfits
        refine ⟨hkept.of_same rfl id rfl rfl, nofun, .of_elsewhere fun generation hlast => ?_⟩
        rcases h.latest.elsewhere hnot hlast with hpath | hended
        · exact .inl hpath
        · exact .inr (mem_ended_record.2 (.inl hended))
      · exact h.finish hnot
  · exact h

theorem perform (h : Sound config s) {act : EnrollAct} (hpossible : Possible config act) :
    Sound config (s.perform config act) := by
  cases act with
  | publish text => exact h.publish hpossible text
  | request credential => exact h.enqueue credential
  | takeMutex => exact h.takeMutex
  | existsAnswered stats => exact h.existsAnswered stats
  | offerInvalidated name renames => exact h.offerInvalidated name renames
  | offerRead reads now => exact h.offerRead reads now
  | offerClaimed name renames => exact h.offerClaimed name renames
  | claimRead reads => exact h.claimRead reads
  | claimReleased => exact h.claimReleased
  | claimUnlinked unlinks => exact h.claimUnlinked unlinks
  | burrowsListed reads => exact h.burrowsListed reads
  | burrowWritten writes => exact h.burrowWritten writes
  | editBurrows rows => exact h.editBurrows rows

theorem fresh (burrows : Option Nat) : Sound config (EnrollRelay.fresh burrows) where
  kept :=
    { atPath := nofun, atSpent := nofun, issued := nofun, once := nofun
      unconfigured := fun _ => rfl
      live := nofun
      endedOnce := List.nodup_nil
      endedIssued := nofun
      redeemed := nofun
      authorizedOnce := List.nodup_nil
      enrolled := nofun }
  stage := nofun
  latest := nofun

end Sound

theorem sound_inductive : (enrollRuns config).Inductive (Sound config) where
  init := by
    rintro s ⟨burrows, rfl⟩
    exact .fresh burrows
  step h hstep := by
    obtain ⟨hpossible, rfl⟩ := hstep
    exact h.perform hpossible

/-! ### With a Burrow persisted -/

/-- Nothing is redeemed and no offer authorizes anything between two states. -/
structure Denies (s s' : EnrollRelay) : Prop where
  burrows : s.burrows ≠ none → s'.burrows ≠ none
  authorized : s'.authorized = s.authorized
  redeemed : ∀ {n generation supplied},
    EnrollEvent.redeemed n generation supplied ∈ s'.history →
      EnrollEvent.redeemed n generation supplied ∈ s.history

namespace Denies

theorem of_same (hburrows : s'.burrows = s.burrows) (hhistory : s'.history = s.history) :
    Denies s s' where
  burrows hsome := hburrows ▸ hsome
  authorized := congrArg (List.filterMap EnrollEvent.enrolledOn) hhistory
  redeemed hmem := hhistory ▸ hmem

theorem trans {s'' : EnrollRelay} (h : Denies s s') (h' : Denies s' s'') : Denies s s'' where
  burrows hsome := h'.burrows (h.burrows hsome)
  authorized := h'.authorized.trans h.authorized
  redeemed hmem := h.redeemed (h'.redeemed hmem)

/-- An event is added that authorizes nothing. -/
theorem of_record (hburrows : s.burrows ≠ none → s'.burrows ≠ none)
    (hhistory : s'.history = s.history ++ [event]) (hon : event.enrolledOn = none)
    (hother : ∀ n generation supplied, event ≠ .redeemed n generation supplied) :
    Denies s s' where
  burrows := hburrows
  authorized := by
    unfold EnrollRelay.authorized
    rw [hhistory, List.filterMap_append]
    simp [hon]
  redeemed hmem := by
    rw [hhistory, List.mem_append, List.mem_singleton] at hmem
    exact hmem.elim id fun hnew => absurd hnew.symm (hother _ _ _)

theorem existsAnswered (stats : Bool) : Denies s (s.existsAnswered config stats) := by
  unfold EnrollRelay.existsAnswered
  repeat' split
  all_goals exact of_same rfl rfl

theorem offerInvalidated (name : JsString) (renames : Bool) :
    Denies s (s.offerInvalidated name renames) := by
  unfold EnrollRelay.offerInvalidated
  split
  · split
    · exact of_same rfl rfl
    · split
      · split <;> exact of_same rfl rfl
      · exact of_record id rfl rfl nofun
  · exact of_same rfl rfl

theorem offerRead (reads : Bool) (now : Ms) : Denies s (s.offerRead config reads now) := by
  unfold EnrollRelay.offerRead
  repeat' split
  all_goals exact of_same rfl rfl

theorem offerClaimed (name : JsString) (renames : Bool) :
    Denies s (s.offerClaimed name renames) := by
  unfold EnrollRelay.offerClaimed
  split
  · split
    · exact of_same rfl rfl
    · split
      · exact of_same rfl rfl
      · exact of_record id rfl rfl nofun
  · exact of_same rfl rfl

theorem claimReleased : Denies s s.claimReleased := by
  unfold EnrollRelay.claimReleased
  repeat' split
  all_goals exact of_same rfl rfl

theorem claimUnlinked (unlinks : Bool) : Denies s (s.claimUnlinked unlinks) := by
  have hclean (name : JsString) :
      Denies s (if unlinks then { s with spent := s.spent.delete name } else s) := by
    cases unlinks <;> exact of_same rfl rfl
  unfold EnrollRelay.claimUnlinked
  split
  · dsimp only
    split
    · split
      · exact (hclean _).trans (of_same rfl rfl)
      · exact (hclean _).trans (of_same rfl rfl)
    · exact (hclean _).trans (of_same rfl rfl)
    · exact (hclean _).trans (of_same rfl rfl)
    · exact of_same rfl rfl
  · exact of_same rfl rfl

theorem burrowsListed (reads : Bool) : Denies s (s.burrowsListed reads) := by
  unfold EnrollRelay.burrowsListed
  repeat' split
  all_goals exact of_same rfl rfl

/-- With a Burrow persisted, no request has a claim to read back. -/
theorem claimRead (h : Sound config s) (hsome : s.burrows ≠ none) (reads : Bool) :
    Denies s (s.claimRead config reads) := by
  unfold EnrollRelay.claimRead
  split
  · next request name supplied verified cleared hactive => exact absurd (h.stage hactive).1 hsome
  · exact of_same rfl rfl

/-- And who is past the gate is not past it as the first. -/
theorem burrowWritten (h : Sound config s) (hsome : s.burrows ≠ none) (writes : Bool) :
    Denies s (s.burrowWritten writes) := by
  unfold EnrollRelay.burrowWritten
  split
  · next request admission hactive =>
      have hadmitted : s.Admitted request admission := h.stage hactive
      split
      · have hnone : admission.redeemed = none := by
          cases hredeemed : admission.redeemed with
          | none => rfl
          | some generation =>
            have hfirst := (hadmitted.redeemed generation hredeemed).1
            exact absurd (hadmitted.first.1 hfirst) hsome
        exact of_record (fun _ => nofun) rfl hnone nofun
      · exact of_same rfl rfl
  · exact of_same rfl rfl

theorem perform (h : Sound config s) (hsome : s.burrows ≠ none) (act : EnrollAct) :
    Denies s (s.perform config act) := by
  cases act with
  | publish text => exact of_record id rfl rfl nofun
  | request credential => exact of_same rfl rfl
  | takeMutex =>
    change Denies s s.takeMutex
    unfold EnrollRelay.takeMutex
    split <;> exact of_same rfl rfl
  | existsAnswered stats => exact existsAnswered stats
  | offerInvalidated name renames => exact offerInvalidated name renames
  | offerRead reads now => exact offerRead reads now
  | offerClaimed name renames => exact offerClaimed name renames
  | claimRead reads => exact claimRead h hsome reads
  | claimReleased => exact claimReleased
  | claimUnlinked unlinks => exact claimUnlinked unlinks
  | burrowsListed reads => exact burrowsListed reads
  | burrowWritten writes => exact burrowWritten h hsome writes
  | editBurrows rows =>
    exact
      { burrows := fun hsome hnone => hsome (Option.map_eq_none_iff.1 hnone)
        authorized := rfl
        redeemed := id }

/-- Once a Burrow is persisted, this is so for good. -/
theorem later (h : Sound config s) (hsome : s.burrows ≠ none)
    (hlater : ((enrollRuns config).startingAt s).Reachable s') : Sound config s' ∧ Denies s s' := by
  induction hlater with
  | start hinit =>
    cases hinit
    exact ⟨h, of_same rfl rfl⟩
  | next _ hstep ih =>
    obtain ⟨hsound, hdenies⟩ := ih
    obtain ⟨hpossible, rfl⟩ := hstep
    exact ⟨hsound.perform hpossible, hdenies.trans (perform hsound (hdenies.burrows hsome) _)⟩

end Denies

/-! ### Main results -/

/-- A claim that is read back is redeemed, or to be given back. -/
theorem claimRead_cases {supplied verified : JsString} {cleared : Nat}
    (hactive : s.active = some (request, .verify name supplied verified cleared)) (reads : Bool) :
    (s.claimRead config reads).active = some (request, .release name) ∨
      ∃ file, s.spent.get name = some file ∧
        EnrollEvent.redeemed request.number file.generation supplied ∈
          (s.claimRead config reads).history := by
  unfold EnrollRelay.claimRead
  rw [hactive]
  dsimp only
  split
  · exact .inl rfl
  next file hread =>
    have hget : s.spent.get name = some file := by
      split at hread
      · exact hread
      · cases hread
    split
    · exact .inl rfl
    · split
      · exact .inr ⟨file, hget, mem_record.2 (.inr rfl)⟩
      · exact .inl rfl

/-- A claim that is given back is at the path again, or a newer offer is there. -/
theorem Sound.claimReleased_offer (h : Sound config s)
    (hactive : s.active = some (request, .release name)) :
    ∃ file, s.spent.get name = some file ∧
      (s.offer = none ∧ s.claimReleased.offer = some file ∨
        ∃ newer, s.offer = some newer ∧ file.generation < newer.generation ∧
          s.claimReleased.offer = some newer) := by
  obtain ⟨file, hholds⟩ := h.stage hactive
  refine ⟨file, hholds.get, ?_⟩
  unfold EnrollRelay.claimReleased
  rw [hactive]
  cases hoffer : s.offer with
  | none =>
    dsimp only
    rw [hholds.get]
    exact .inl ⟨rfl, rfl⟩
  | some newer => exact .inr ⟨newer, rfl, hholds.newer newer hoffer, hoffer⟩

/-- In every run of enrollment requests and an installer, an offer authorizes at most one
enrollment and, once a Burrow is persisted, none; what was redeemed held the token and was
taken by that request; what was claimed by mistake is given back; the latest offer is never
lost; and with an older offer at the path no Burrow is the first. -/
theorem offer_spent_once (hs : (enrollRuns config).Reachable s) :
    s.authorized.Nodup ∧ s.ended.Nodup ∧
    (∀ {later}, ((enrollRuns config).startingAt s).Reachable later → s.burrows ≠ none →
      Denies s later) ∧
    (∀ {n generation supplied}, EnrollEvent.redeemed n generation supplied ∈ s.history →
      EnrollEvent.claimed n generation ∈ s.history ∧
      (∀ file, s.offer = some file → file.generation ≠ generation) ∧
      ∃ text offer, EnrollEvent.published generation text ∈ s.history ∧
        config.parseEnrollmentOffer text = some offer ∧
        config.secretEquals supplied offer.token = true ∧
        (config.SeparatesTokens → supplied = offer.token)) ∧
    (∀ {request name supplied verified cleared},
      s.active = some (request, .verify name supplied verified cleared) → ∀ reads,
        (s.claimRead config reads).active = some (request, .release name) ∨
        ∃ file, s.spent.get name = some file ∧
          EnrollEvent.redeemed request.number file.generation supplied ∈
            (s.claimRead config reads).history) ∧
    (∀ {request name}, s.active = some (request, .release name) →
      ∃ file, s.spent.get name = some file ∧
        (s.offer = none ∧ s.claimReleased.offer = some file ∨
          ∃ newer, s.offer = some newer ∧ file.generation < newer.generation ∧
            s.claimReleased.offer = some newer)) ∧
    s.Latest ∧
    (∀ {request admission}, s.active = some (request, .write admission) →
      (admission.first = true ↔ s.burrows = none)) ∧
    (∀ {n admission offer}, EnrollEvent.enrolled n admission offer ∈ s.history →
      admission.first = true → ∀ generation, offer = some generation →
        admission.cleared ≤ generation) := by
  have h : Sound config s := sound_inductive.reachable hs
  refine ⟨h.kept.authorizedOnce, h.kept.endedOnce, fun hlater hsome => (Denies.later h hsome hlater).2,
    fun hmem => ?_, fun hactive reads => claimRead_cases hactive reads, h.claimReleased_offer,
    h.latest, fun hactive => Admitted.first (h.stage hactive), fun hmem => (h.kept.enrolled hmem).2⟩
  obtain ⟨hclaimed, text, offer, hpublished, hparse, htoken, hequals⟩ := h.kept.redeemed hmem
  refine ⟨hclaimed, fun file hoffer hsame => ?_, text, offer, hpublished, hparse, hequals,
    fun hseparates => EnrollConfig.secretEquals_eq hseparates htoken
      (EnrollConfig.isEnrollToken_of_parse hparse) hequals⟩
  exact h.kept.live hoffer (hsame ▸ mem_ended_of_mem hmem rfl)

end EnrollRelay

/-! ### An enrollment that goes through -/

namespace OneEnrollment

def token : JsString := List.replicate 64 0x61

/-- `JSON.parse` as it is on the one file, and a digest that tells tokens apart. -/
def config : EnrollConfig where
  configured := true
  parseJson text :=
    if text = js "offer" then
      some (.object [(js "origin", .string (js "https://dormouse.ts.net")),
        (js "token", .string token), (js "mintedAt", .string (js "2026-01-01T00:00:00Z"))])
    else none
  isOrigin origin := origin == js "https://dormouse.ts.net"
  parseDate _ := some 0
  sha256 text := text.map UInt16.toUInt8

theorem toUInt16_toUInt8 {a : JsString} (h : isEnrollToken a = true) :
    (a.map UInt16.toUInt8).map UInt8.toUInt16 = a := by
  unfold isEnrollToken at h
  rw [Bool.and_eq_true, List.all_eq_true] at h
  rw [List.map_map]
  refine (List.map_congr_left fun c hc => ?_).trans (List.map_id a)
  have hhex := h.2 c hc
  simp only [JsString.isDigit, Bool.or_eq_true, Bool.and_eq_true, decide_eq_true_eq] at hhex
  simp only [UInt16.le_iff_toNat_le] at hhex
  have hsmall : c.toNat < 256 := by
    rcases hhex with ⟨-, hle⟩ | ⟨-, hle⟩
    · exact Nat.lt_of_le_of_lt hle (by decide)
    · exact Nat.lt_of_le_of_lt hle (by decide)
  apply UInt16.toNat_inj.1
  change (c.toUInt8.toUInt16).toNat = c.toNat
  rw [UInt8.toNat_toUInt16, UInt16.toNat_toUInt8]
  exact Nat.mod_eq_of_lt hsmall

theorem separatesTokens : config.SeparatesTokens := by
  intro a b ha hb hdigest
  rw [← toUInt16_toUInt8 ha, ← toUInt16_toUInt8 hb]
  exact congrArg (List.map UInt8.toUInt16) hdigest

def acts : List EnrollAct :=
  [.publish (js "offer"), .request (.token token), .takeMutex, .existsAnswered true,
    .offerRead true 1, .offerClaimed (js "spent") true, .claimRead true, .claimUnlinked true,
    .burrowsListed true, .burrowWritten true]

def after : EnrollRelay := acts.foldl (fun s act => s.perform config act) (.fresh none)

theorem reachable_foldl {s : EnrollRelay} (hs : (EnrollRelay.enrollRuns config).Reachable s) :
    ∀ acts : List EnrollAct, (EnrollRelay.enrollRuns config).Reachable
      (acts.foldl (fun s act => s.perform config act) s) := by
  have hstep : ∀ s act, (EnrollRelay.enrollRuns config).step s act (s.perform config act) :=
    fun s act => ⟨by cases act <;> trivial, rfl⟩
  exact fun acts => hs.foldl hstep acts

theorem reachable_after : (EnrollRelay.enrollRuns config).Reachable after :=
  reachable_foldl (.start ⟨none, rfl⟩) acts

end OneEnrollment

/-- The offer is redeemed by the first request, and authorized its enrollment. -/
theorem EnrollRelay.offer_spent_once_one :
    OneEnrollment.after.authorized = [0] ∧ OneEnrollment.after.authorized.Nodup ∧
    ∃ text offer, EnrollEvent.published 0 text ∈ OneEnrollment.after.history ∧
      OneEnrollment.config.parseEnrollmentOffer text = some offer ∧
      OneEnrollment.token = offer.token := by
  have hall := EnrollRelay.offer_spent_once OneEnrollment.reachable_after
  have hmem : EnrollEvent.redeemed 0 0 OneEnrollment.token ∈ OneEnrollment.after.history := by
    decide +kernel
  obtain ⟨-, -, text, offer, hpublished, hparse, -, hequal⟩ := hall.2.2.2.1 hmem
  exact ⟨by decide +kernel, hall.1, text, offer, hpublished, hparse,
    hequal OneEnrollment.separatesTokens⟩

end Dormouse.Relay
