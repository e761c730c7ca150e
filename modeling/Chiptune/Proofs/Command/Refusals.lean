import Chiptune.Command.Run

/-!
# Refused runs

A run is refused if it fails for another reason than a file that cannot be written. Settings,
periods, sources and warnings are all looked at before anything is delivered. One refusal comes
later: constants are asked of a run that has a period table and no source. The listing with
the period table is then delivered first.
-/

namespace Chiptune.Command

/-- The delivery of a listing. -/
def listingDelivery (arguments : Arguments) (text : String) : Delivery :=
  match arguments.output with
  | some path => .file path text
  | none => .output text

/-- The plan fails, and delivering it does not. -/
def Plan.IsRefused (plan : Plan) (files : FileTree) : Prop :=
  plan.failure.isSome = true ∧ (carryOut files plan.deliveries).failure = none

/-- Nothing is delivered: nothing is put out and every file is as before. -/
structure Plan.LeavesNothing (plan : Plan) (files : FileTree) : Prop where
  deliveries : plan.deliveries = []
  output : (plan.outcome files).output = ""
  files : (plan.outcome files).files = files

/-- Constants are asked for, which are those of a source, and no source is named. The settings
are good, and a period table is to be listed. -/
structure AsksConstantsOfNothing (world : World) (arguments : Arguments) (settings : Settings) :
    Prop where
  discovered : Settings.discover world.sources arguments.settings = .ok settings
  source : arguments.source = none
  constants : arguments.constants.isSome = true
  pos : 0 < (override arguments settings).periods
  le : (override arguments settings).periods ≤ Periods.most

theorem deliver_eq (arguments : Arguments) (settings : Settings) (assembly : Option Assembly)
    (name : String) (notices : List String) :
    deliver arguments settings assembly name notices =
      let listing :=
        listingDelivery arguments (Output.listing assembly (settings.listingOptions name))
      match arguments.constants, assembly with
      | none, _ => ⟨notices, [listing], none⟩
      | some path, some assembly =>
        ⟨notices, [listing, .file path (Output.constants assembly)], none⟩
      | some _, none => ⟨notices, [listing], some "--write-inc requires an input file"⟩ := rfl

theorem Plan.leavesNothing_of_deliveries {plan : Plan} (h : plan.deliveries = [])
    (files : FileTree) : plan.LeavesNothing files := by
  refine ⟨h, ?_, ?_⟩ <;> rw [Plan.outcome, h, carryOut]

theorem failure_deliver_some (arguments : Arguments) (settings : Settings) (assembly : Assembly)
    (name : String) (notices : List String) :
    (deliver arguments settings (some assembly) name notices).failure = none := by
  rw [deliver_eq]
  cases arguments.constants <;> rfl

theorem deliveries_publish {arguments : Arguments} {settings : Settings} {assembly : Assembly}
    {name : String} (h : (publish arguments settings assembly name).failure.isSome = true) :
    (publish arguments settings assembly name).deliveries = [] := by
  unfold publish at h ⊢
  dsimp only at h ⊢
  split at h
  next hstrict => rw [if_pos hstrict, Plan.failing]
  next => simp [failure_deliver_some] at h

/-- With settings that are good, a run fails before its deliveries, or it has no source and asks
for constants. -/
theorem deliveries_planWith {world : World} {arguments : Arguments} {settings : Settings}
    (h : (planWith world arguments settings).failure.isSome = true) :
    (planWith world arguments settings).deliveries = [] ∨
      arguments.source = none ∧ arguments.constants.isSome = true ∧ 0 < settings.periods ∧
        settings.periods ≤ Periods.most := by
  unfold planWith at h ⊢
  split
  next => exact .inl rfl
  next hasked =>
    rw [if_neg hasked] at h
    split
    next => exact .inl rfl
    next hmost =>
      rw [if_neg hmost] at h
      cases hsource : arguments.source with
      | none =>
          rw [hsource] at h hasked
          cases hconstants : arguments.constants with
          | none => simp [deliver_eq, hconstants] at h
          | some path =>
              have hperiods : settings.periods ≠ 0 := by simpa using hasked
              exact .inr ⟨rfl, rfl, Nat.pos_of_ne_zero hperiods, Nat.le_of_not_lt hmost⟩
      | some source =>
          rw [hsource] at h
          dsimp only at h ⊢
          cases hassemble : assemble world settings source with
          | error message => exact .inl rfl
          | ok assembly =>
              rw [hassemble] at h
              exact .inl (deliveries_publish h)

theorem AsksConstantsOfNothing.plan_eq {world : World} {arguments : Arguments} {settings : Settings}
    (h : AsksConstantsOfNothing world arguments settings) :
    plan world arguments =
      ⟨[], [listingDelivery arguments
          (Output.listing none ((override arguments settings).listingOptions ""))],
        some "--write-inc requires an input file"⟩ := by
  obtain ⟨path, hpath⟩ := Option.isSome_iff_exists.mp h.constants
  have hasked :
      ¬(arguments.source.isNone && (override arguments settings).periods == 0) = true := by
    have hpos := h.pos
    simp
    omega
  rw [plan, h.discovered]
  dsimp only
  rw [planWith, if_neg hasked, if_neg (Nat.not_lt.mpr h.le), h.source]
  dsimp only
  rw [deliver_eq, hpath]

/-- Without a file for it, the listing is put out by the refused run. -/
theorem AsksConstantsOfNothing.isRefused {world : World} {arguments : Arguments}
    {settings : Settings} (h : AsksConstantsOfNothing world arguments settings)
    (hoption : arguments.output = none) (files : FileTree) :
    (plan world arguments).IsRefused files ∧
      ((plan world arguments).outcome files).output =
        Output.listing none ((override arguments settings).listingOptions "") := by
  rw [h.plan_eq, listingDelivery, hoption]
  refine ⟨⟨rfl, rfl⟩, ?_⟩
  simp only [Plan.outcome, carryOut, Delivered.after, String.append_empty]

theorem deliveries_plan {world : World} {arguments : Arguments}
    (h : (plan world arguments).failure.isSome = true) :
    (plan world arguments).deliveries = [] ∨
      ∃ settings, AsksConstantsOfNothing world arguments settings := by
  unfold plan at h ⊢
  cases hsettings : Settings.discover world.sources arguments.settings with
  | error problem => exact .inl rfl
  | ok settings =>
      rw [hsettings] at h
      rcases deliveries_planWith h with hnone | ⟨hsource, hconstants, hpos, hle⟩
      · exact .inl hnone
      · exact .inr ⟨settings, hsettings, hsource, hconstants, hpos, hle⟩

/-- A refused run leaves nothing behind, exactly if it does not ask for constants of no source.
If it does, its listing is delivered before the run is refused. -/
theorem isRefused_leavesNothing_iff (world : World) (arguments : Arguments) (files : FileTree)
    (h : (plan world arguments).IsRefused files) :
    ((plan world arguments).LeavesNothing files ↔
      ¬∃ settings, AsksConstantsOfNothing world arguments settings) ∧
    ∀ settings, AsksConstantsOfNothing world arguments settings →
      plan world arguments =
        ⟨[], [listingDelivery arguments
            (Output.listing none ((override arguments settings).listingOptions ""))],
          some "--write-inc requires an input file"⟩ := by
  refine ⟨⟨?_, fun hasked => ?_⟩, fun settings hasked => hasked.plan_eq⟩
  · rintro hnothing ⟨settings, hasked⟩
    have hdeliveries := hnothing.deliveries
    rw [hasked.plan_eq] at hdeliveries
    cases hdeliveries
  · exact Plan.leavesNothing_of_deliveries ((deliveries_plan h.1).resolve_right hasked) files

theorem listing_ne_empty (assembly : Option Assembly) (options : Output.Options) :
    Output.listing assembly options ≠ "" := by
  intro h
  have hchars := congrArg String.toList h
  obtain ⟨lines, hlines⟩ : ∃ lines, Output.listing assembly options =
      String.intercalate "\n" (Output.header :: lines) := ⟨_, rfl⟩
  rw [hlines] at hchars
  cases lines with
  | nil => simp [Output.header] at hchars
  | cons line lines => simp [String.intercalate_cons_cons, Output.header] at hchars

/-- A run with warnings that count as errors, in a tree that holds an older listing. -/
theorem strict_run_leavesNothing :
    let files : FileTree := ⟨[(["out.s"], .text "; older")]⟩
    let arguments := { Arguments.blank with
      source := some "-", output := some "out.s", constants := some "out.inc", strict := true }
    let plan := plan (World.ofTree files none "flute") arguments
    plan.IsRefused files ∧ plan.failure = some "1 warnings treated as errors (--strict)" ∧
      plan.LeavesNothing files := by
  intro files arguments plan
  have hrefused : plan.IsRefused files := by
    unfold Plan.IsRefused
    decide +kernel
  have hsource : ¬∃ settings,
      AsksConstantsOfNothing (World.ofTree files none "flute") arguments settings :=
    fun ⟨_, hasked⟩ => Option.some_ne_none _ hasked.source
  exact ⟨hrefused, by decide +kernel,
    (isRefused_leavesNothing_iff _ arguments files hrefused).1.mpr hsource⟩

/-- A period table is listed, and then the run is refused. -/
theorem period_table_listed_by_refused_run :
    let files : FileTree := ⟨[]⟩
    let arguments := { Arguments.blank with periods := some 3, constants := some "x.inc" }
    let plan := plan (World.ofTree files none "") arguments
    plan.IsRefused files ∧ (plan.outcome files).output ≠ "" := by
  intro files arguments plan
  have hasked : AsksConstantsOfNothing (World.ofTree files none "") arguments Settings.usual := by
    refine ⟨?_, rfl, rfl, by decide, by decide⟩
    have habsent : (World.ofTree files none "").sources.present Settings.localPath = false := by
      decide +kernel
    simp only [Settings.discover, habsent]
    rfl
  obtain ⟨hrefused, houtput⟩ := hasked.isRefused rfl files
  exact ⟨hrefused, houtput ▸ listing_ne_empty none _⟩

end Chiptune.Command
