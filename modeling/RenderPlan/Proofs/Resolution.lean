import RenderPlan.Plan.Resolution
import RenderPlan.Proofs.FirstFailure

/-!
# What resolving an item finds

Resolving an item either follows every one of its references or reports the first that leads
nowhere. Both outcomes are described here by look-ups in the catalogs alone: what has to be there,
and which of the missing names comes first.

## Main definitions

* `Catalogs.HasTexture`, `Catalogs.HasAttribute`, `Catalogs.HasSample`: a single reference leads
  somewhere
* `Catalogs.Supplies`, `Catalogs.Resolves`: every reference of an item does
* `Catalogs.FirstMissing`: the first reference of an item that does not
* `ResolvedItem.FoundIn`: a resolved item holds what the catalogs declare

## Main results

* `Catalogs.resolve_eq_ok_iff`: resolving returns the declarations that the item refers to
* `Catalogs.exists_resolve_eq_ok_iff`: it succeeds when every reference leads somewhere
* `Catalogs.resolve_eq_error_iff`: otherwise it reports the first that does not
-/

namespace RenderPlan

namespace Catalogs

variable {c : Catalogs} {name : String} {item : Item} {program : Program}

/-! ## References that lead somewhere -/

/-- The texture is declared. -/
def HasTexture (c : Catalogs) (name : String) : Prop :=
  ∃ texture, c.textures.get? name = some texture

/-- The model is declared, and has the attribute. -/
def HasAttribute (c : Catalogs) (ref : AttributeRef) : Prop :=
  ∃ model buffer, c.models.get? ref.model = some model ∧ model.get? ref.name = some buffer

/-- The texture bound to a sampler is declared, unless the program has no use for the sampler. -/
def HasSample (c : Catalogs) (program : Program) (sampler texture : String) : Prop :=
  sampler ∈ program.samplers → c.HasTexture texture

/-- Every texture, buffer and target that the item refers to is declared. -/
structure Supplies (c : Catalogs) (item : Item) (program : Program) : Prop where
  samples : item.textureBindings.Forall (c.HasSample program)
  bindings : item.bindings.Forall fun _ ref => c.HasAttribute ref
  otherBuffers : item.otherBuffers.Forall fun _ ref => c.HasAttribute ref
  target : ∀ texture, item.target = some (.texture texture) → c.HasTexture texture

/-- The item is declared, and so is everything that it refers to. -/
def Resolves (c : Catalogs) (name : String) : Prop :=
  ∃ item program, c.items.get? name = some item ∧
    c.programs.get? item.program = some program ∧ c.Supplies item program

/-- **The first missing name** of an item: each kind of reference is looked at when those before it
lead somewhere, and within a kind those of lesser samplers or slots come first. -/
inductive FirstMissing (c : Catalogs) (name : String) : CompileError.Missing → Prop where
  | item (hitem : c.items.get? name = none) : FirstMissing c name .item
  | program {item : Item} (hitem : c.items.get? name = some item)
      (hprogram : c.programs.get? item.program = none) :
      FirstMissing c name (.program item.program)
  | sample {item : Item} {program : Program} {sampler texture : String}
      (hitem : c.items.get? name = some item)
      (hprogram : c.programs.get? item.program = some program)
      (hsample : item.textureBindings.FirstViolation (c.HasSample program) sampler texture) :
      FirstMissing c name (.texture texture)
  | binding {item : Item} {program : Program} {slot : String} {ref : AttributeRef}
      (hitem : c.items.get? name = some item)
      (hprogram : c.programs.get? item.program = some program)
      (hsamples : item.textureBindings.Forall (c.HasSample program))
      (hbinding : item.bindings.FirstViolation (fun _ ref => c.HasAttribute ref) slot ref) :
      FirstMissing c name (.buffer ref)
  | otherBuffer {item : Item} {program : Program} {slot : String} {ref : AttributeRef}
      (hitem : c.items.get? name = some item)
      (hprogram : c.programs.get? item.program = some program)
      (hsamples : item.textureBindings.Forall (c.HasSample program))
      (hbindings : item.bindings.Forall fun _ ref => c.HasAttribute ref)
      (hbuffer : item.otherBuffers.FirstViolation (fun _ ref => c.HasAttribute ref) slot ref) :
      FirstMissing c name (.buffer ref)
  | target {item : Item} {program : Program} {texture : String}
      (hitem : c.items.get? name = some item)
      (hprogram : c.programs.get? item.program = some program)
      (hsamples : item.textureBindings.Forall (c.HasSample program))
      (hbindings : item.bindings.Forall fun _ ref => c.HasAttribute ref)
      (hbuffers : item.otherBuffers.Forall fun _ ref => c.HasAttribute ref)
      (htarget : item.target = some (.texture texture)) (htexture : ¬c.HasTexture texture) :
      FirstMissing c name (.target texture)

/-! ## Single look-ups -/

theorem buffer?_eq_some_iff {ref : AttributeRef} {buffer : Buffer} :
    c.buffer? ref = some buffer ↔
      ∃ model, c.models.get? ref.model = some model ∧ model.get? ref.name = some buffer :=
  Option.bind_eq_some_iff

variable {missing : String → CompileError.Missing} {m : CompileError.Missing}

theorem findTexture_eq_ok_iff {found : String × Texture} :
    c.findTexture missing name = .ok found ↔
      found.1 = name ∧ c.textures.get? found.1 = some found.2 := by
  rw [findTexture, map_eq_ok_iff]
  simp only [found_eq_ok_iff]
  constructor
  · rintro ⟨texture, htexture, rfl⟩
    exact ⟨rfl, htexture⟩
  · rintro ⟨rfl, htexture⟩
    exact ⟨found.2, htexture, rfl⟩

theorem exists_findTexture_eq_ok_iff :
    (∃ found, c.findTexture missing name = .ok found) ↔ c.HasTexture name := by
  simp only [findTexture_eq_ok_iff, Prod.exists]
  constructor
  · rintro ⟨_, texture, rfl, htexture⟩
    exact ⟨texture, htexture⟩
  · rintro ⟨texture, htexture⟩
    exact ⟨name, texture, rfl, htexture⟩

theorem findTexture_eq_error_iff :
    c.findTexture missing name = .error m ↔ ¬c.HasTexture name ∧ missing name = m := by
  rw [findTexture, map_eq_error_iff, found_eq_error_iff, HasTexture]
  cases c.textures.get? name <;> simp

theorem findBuffer_eq_ok_iff {ref : AttributeRef} {found : AttributeRef × Buffer} :
    c.findBuffer ref = .ok found ↔ found.1 = ref ∧ c.buffer? found.1 = some found.2 := by
  rw [findBuffer, map_eq_ok_iff]
  simp only [found_eq_ok_iff]
  constructor
  · rintro ⟨buffer, hbuffer, rfl⟩
    exact ⟨rfl, hbuffer⟩
  · rintro ⟨rfl, hbuffer⟩
    exact ⟨found.2, hbuffer, rfl⟩

theorem exists_buffer?_eq_some_iff {ref : AttributeRef} :
    (∃ buffer, c.buffer? ref = some buffer) ↔ c.HasAttribute ref := by
  simp only [buffer?_eq_some_iff, HasAttribute]
  exact exists_comm

theorem exists_findBuffer_eq_ok_iff {ref : AttributeRef} :
    (∃ found, c.findBuffer ref = .ok found) ↔ c.HasAttribute ref := by
  simp only [findBuffer_eq_ok_iff, Prod.exists, ← exists_buffer?_eq_some_iff]
  constructor
  · rintro ⟨_, buffer, rfl, hbuffer⟩
    exact ⟨buffer, hbuffer⟩
  · rintro ⟨buffer, hbuffer⟩
    exact ⟨ref, buffer, rfl, hbuffer⟩

theorem findBuffer_eq_error_iff {ref : AttributeRef} :
    c.findBuffer ref = .error m ↔ ¬c.HasAttribute ref ∧ .buffer ref = m := by
  rw [findBuffer, map_eq_error_iff, found_eq_error_iff, ← exists_buffer?_eq_some_iff]
  cases c.buffer? ref <;> simp

theorem targetTexture?_eq_some_iff {texture : String} :
    item.targetTexture? = some texture ↔ item.target = some (.texture texture) := by
  rw [Item.targetTexture?, Option.bind_eq_some_iff]
  constructor
  · rintro ⟨target, htarget, htexture⟩
    cases target with
    | canvas => cases htexture
    | texture name =>
      cases htexture
      exact htarget
  · exact fun htarget => ⟨_, htarget, rfl⟩

/-! ## The references of an item, one kind at a time -/

theorem exists_mapM_samples_eq_ok_iff :
    (∃ samples, (item.sampledTextures program).mapM (c.findTexture missing) = .ok samples) ↔
      item.textureBindings.Forall (c.HasSample program) := by
  rw [Item.sampledTextures, NameTable.exists_mapM_eq_ok_iff, NameTable.forall_filter]
  simp only [exists_findTexture_eq_ok_iff, Program.hasSampler, List.contains_iff_mem]
  rfl

theorem mapM_samples_eq_error_iff :
    (item.sampledTextures program).mapM (c.findTexture missing) = .error m ↔
      ∃ sampler texture,
        item.textureBindings.FirstViolation (c.HasSample program) sampler texture ∧
          missing texture = m := by
  rw [Item.sampledTextures, NameTable.mapM_eq_error_iff]
  simp only [NameTable.firstViolation_filter, exists_findTexture_eq_ok_iff,
    findTexture_eq_error_iff, Program.hasSampler, List.contains_iff_mem]
  constructor
  · rintro ⟨sampler, texture, hfirst, -, hm⟩
    exact ⟨sampler, texture, hfirst, hm⟩
  · rintro ⟨sampler, texture, hfirst, hm⟩
    -- were the texture declared, its sampler would not be a violation
    exact ⟨sampler, texture, hfirst, fun h => hfirst.2.1 fun _ => h, hm⟩

theorem attributeRefs_eq :
    item.attributeRefs = item.bindings.values ++ item.otherBuffers.values := by
  rw [Item.attributeRefs, Item.bufferRefs, List.map_append, List.map_map, List.map_map]
  rfl

theorem exists_mapM_buffers_eq_ok_iff :
    (∃ buffers, item.attributeRefs.mapM c.findBuffer = .ok buffers) ↔
      (item.bindings.Forall fun _ ref => c.HasAttribute ref) ∧
        item.otherBuffers.Forall fun _ ref => c.HasAttribute ref := by
  rw [attributeRefs_eq, exists_mapM_eq_ok_iff, List.forall_mem_append, ← exists_mapM_eq_ok_iff,
    ← exists_mapM_eq_ok_iff, NameTable.exists_mapM_eq_ok_iff, NameTable.exists_mapM_eq_ok_iff]
  simp only [exists_findBuffer_eq_ok_iff]

theorem mapM_values_findBuffer_eq_error_iff {t : NameTable AttributeRef} :
    t.values.mapM c.findBuffer = .error m ↔
      ∃ slot ref, t.FirstViolation (fun _ ref => c.HasAttribute ref) slot ref ∧
        .buffer ref = m := by
  rw [NameTable.mapM_eq_error_iff]
  simp only [exists_findBuffer_eq_ok_iff, findBuffer_eq_error_iff]
  constructor
  · rintro ⟨slot, ref, hfirst, -, hm⟩
    exact ⟨slot, ref, hfirst, hm⟩
  · rintro ⟨slot, ref, hfirst, hm⟩
    exact ⟨slot, ref, hfirst, hfirst.2.1, hm⟩

/-- The buffers fail with the first one missing among those drawn, or else among those kept. -/
theorem mapM_buffers_eq_error_iff :
    item.attributeRefs.mapM c.findBuffer = .error m ↔
      (∃ slot ref, item.bindings.FirstViolation (fun _ ref => c.HasAttribute ref) slot ref ∧
        .buffer ref = m) ∨
      (item.bindings.Forall fun _ ref => c.HasAttribute ref) ∧
        ∃ slot ref, item.otherBuffers.FirstViolation (fun _ ref => c.HasAttribute ref) slot ref ∧
          .buffer ref = m := by
  rw [attributeRefs_eq, mapM_append_eq_error_iff, NameTable.exists_mapM_eq_ok_iff,
    mapM_values_findBuffer_eq_error_iff, mapM_values_findBuffer_eq_error_iff]
  simp only [exists_findBuffer_eq_ok_iff]

theorem exists_mapM_target_eq_ok_iff :
    (∃ target, item.targetTexture?.mapM (c.findTexture missing) = .ok target) ↔
      ∀ texture, item.target = some (.texture texture) → c.HasTexture texture := by
  simp only [← targetTexture?_eq_some_iff]
  cases item.targetTexture? with
  | none => exact ⟨fun _ _ h => (nomatch h), fun _ => ⟨none, rfl⟩⟩
  | some name =>
    simp only [Option.some.injEq, forall_eq', ← @exists_findTexture_eq_ok_iff c _ missing]
    constructor
    · rintro ⟨target, h⟩
      obtain ⟨found, hfound, -⟩ := map_eq_ok_iff.mp h
      exact ⟨found, hfound⟩
    · rintro ⟨found, hfound⟩
      exact ⟨some found, map_eq_ok_iff.mpr ⟨found, hfound, rfl⟩⟩

theorem mapM_target_eq_ok_iff {o : Option String} {target : Option (String × Texture)} :
    o.mapM (c.findTexture missing) = .ok target ↔
      target.map Prod.fst = o ∧
        ∀ found, target = some found → c.textures.get? found.1 = some found.2 := by
  cases o with
  | none =>
    constructor
    · intro h
      cases h
      exact ⟨rfl, fun _ h => (nomatch h)⟩
    · rintro ⟨h, -⟩
      rw [Option.map_eq_none_iff.mp h]
      rfl
  | some texture =>
    refine Iff.trans map_eq_ok_iff ?_
    simp only [findTexture_eq_ok_iff]
    constructor
    · rintro ⟨found, ⟨hname, htexture⟩, rfl⟩
      exact ⟨congrArg some hname, fun _ h => by cases h; exact htexture⟩
    · rintro ⟨hname, htexture⟩
      obtain ⟨found, rfl, hfst⟩ := Option.map_eq_some_iff.mp hname
      exact ⟨found, ⟨hfst, htexture found rfl⟩, rfl⟩

theorem mapM_target_eq_error_iff :
    item.targetTexture?.mapM (c.findTexture missing) = .error m ↔
      ∃ texture, item.target = some (.texture texture) ∧ ¬c.HasTexture texture ∧
        missing texture = m := by
  simp only [← targetTexture?_eq_some_iff]
  cases item.targetTexture? with
  | none =>
    constructor
    · intro h
      cases h
    · rintro ⟨_, h, -⟩
      cases h
  | some name =>
    simp only [Option.some.injEq, exists_eq_left', ← findTexture_eq_error_iff]
    exact map_eq_error_iff

/-! ## Whole items -/

theorem resolve_eq_ok_iff_steps {r : ResolvedItem} :
    c.resolve name = .ok r ↔
      ∃ item, c.items.get? name = some item ∧
      ∃ program, c.programs.get? item.program = some program ∧
      ∃ samples, (item.sampledTextures program).mapM (c.findTexture .texture) = .ok samples ∧
      ∃ buffers, item.attributeRefs.mapM c.findBuffer = .ok buffers ∧
      ∃ target, item.targetTexture?.mapM (c.findTexture .target) = .ok target ∧
        ⟨name, item, program, samples, buffers, target⟩ = r := by
  simp only [resolve, bind_eq_ok_iff, found_eq_ok_iff, pure, Except.pure, Except.ok.injEq]

/-- **Resolving succeeds** when the item and everything that it refers to is declared. -/
theorem exists_resolve_eq_ok_iff : (∃ r, c.resolve name = .ok r) ↔ c.Resolves name := by
  simp only [resolve_eq_ok_iff_steps]
  constructor
  · rintro ⟨-, item, hitem, program, hprogram, samples, hsamples, buffers, hbuffers, target,
      htarget, -⟩
    obtain ⟨hbindings, hothers⟩ := exists_mapM_buffers_eq_ok_iff.mp ⟨buffers, hbuffers⟩
    exact ⟨item, program, hitem, hprogram, exists_mapM_samples_eq_ok_iff.mp ⟨samples, hsamples⟩,
      hbindings, hothers, exists_mapM_target_eq_ok_iff.mp ⟨target, htarget⟩⟩
  · rintro ⟨item, program, hitem, hprogram, hsupplies⟩
    obtain ⟨samples, hsamples⟩ := exists_mapM_samples_eq_ok_iff.mpr hsupplies.samples
    obtain ⟨buffers, hbuffers⟩ :=
      exists_mapM_buffers_eq_ok_iff.mpr ⟨hsupplies.bindings, hsupplies.otherBuffers⟩
    obtain ⟨target, htarget⟩ := exists_mapM_target_eq_ok_iff.mpr hsupplies.target
    exact ⟨_, item, hitem, program, hprogram, samples, hsamples, buffers, hbuffers, target, htarget,
      rfl⟩

theorem resolve_eq_error_iff_steps :
    c.resolve name = .error m ↔
      (c.items.get? name = none ∧ .item = m) ∨
      ∃ item, c.items.get? name = some item ∧
        ((c.programs.get? item.program = none ∧ .program item.program = m) ∨
        ∃ program, c.programs.get? item.program = some program ∧
          ((item.sampledTextures program).mapM (c.findTexture .texture) = .error m ∨
          ∃ samples, (item.sampledTextures program).mapM (c.findTexture .texture) = .ok samples ∧
            (item.attributeRefs.mapM c.findBuffer = .error m ∨
            ∃ buffers, item.attributeRefs.mapM c.findBuffer = .ok buffers ∧
              item.targetTexture?.mapM (c.findTexture .target) = .error m))) := by
  simp only [resolve, bind_eq_error_iff, found_eq_ok_iff, found_eq_error_iff, pure, Except.pure,
    reduceCtorEq, and_false, exists_false, or_false]

/-- **Resolving fails** with the first missing name. -/
theorem resolve_eq_error_iff : c.resolve name = .error m ↔ c.FirstMissing name m := by
  rw [resolve_eq_error_iff_steps]
  constructor
  -- a step that fails is reached only after the ones before it have found what they look for
  · rintro (⟨hitem, rfl⟩ | ⟨item, hitem, ⟨hprogram, rfl⟩ | ⟨program, hprogram, h⟩⟩)
    · exact .item hitem
    · exact .program hitem hprogram
    rcases h with h | ⟨samples, hsamples, h⟩
    · obtain ⟨sampler, texture, hfirst, rfl⟩ := mapM_samples_eq_error_iff.mp h
      exact .sample hitem hprogram hfirst
    have hsamples := exists_mapM_samples_eq_ok_iff.mp ⟨samples, hsamples⟩
    rcases h with h | ⟨buffers, hbuffers, h⟩
    · rcases mapM_buffers_eq_error_iff.mp h with
        ⟨slot, ref, hfirst, rfl⟩ | ⟨hbindings, slot, ref, hfirst, rfl⟩
      · exact .binding hitem hprogram hsamples hfirst
      · exact .otherBuffer hitem hprogram hsamples hbindings hfirst
    obtain ⟨hbindings, hothers⟩ := exists_mapM_buffers_eq_ok_iff.mp ⟨buffers, hbuffers⟩
    obtain ⟨texture, htarget, htexture, rfl⟩ := mapM_target_eq_error_iff.mp h
    exact .target hitem hprogram hsamples hbindings hothers htarget htexture
  · intro h
    cases h with
    | item hitem => exact .inl ⟨hitem, rfl⟩
    | program hitem hprogram => exact .inr ⟨_, hitem, .inl ⟨hprogram, rfl⟩⟩
    | sample hitem hprogram hfirst =>
      exact .inr ⟨_, hitem, .inr ⟨_, hprogram, .inl
        (mapM_samples_eq_error_iff.mpr ⟨_, _, hfirst, rfl⟩)⟩⟩
    | binding hitem hprogram hsamples hfirst =>
      obtain ⟨samples, hsamples⟩ := exists_mapM_samples_eq_ok_iff.mpr hsamples
      have hbuffers := mapM_buffers_eq_error_iff.mpr (.inl ⟨_, _, hfirst, rfl⟩)
      exact .inr ⟨_, hitem, .inr ⟨_, hprogram, .inr ⟨samples, hsamples, .inl hbuffers⟩⟩⟩
    | otherBuffer hitem hprogram hsamples hbindings hfirst =>
      obtain ⟨samples, hsamples⟩ := exists_mapM_samples_eq_ok_iff.mpr hsamples
      have hbuffers := mapM_buffers_eq_error_iff.mpr (.inr ⟨hbindings, _, _, hfirst, rfl⟩)
      exact .inr ⟨_, hitem, .inr ⟨_, hprogram, .inr ⟨samples, hsamples, .inl hbuffers⟩⟩⟩
    | target hitem hprogram hsamples hbindings hothers htarget htexture =>
      obtain ⟨samples, hsamples⟩ := exists_mapM_samples_eq_ok_iff.mpr hsamples
      obtain ⟨buffers, hbuffers⟩ := exists_mapM_buffers_eq_ok_iff.mpr ⟨hbindings, hothers⟩
      refine .inr ⟨_, hitem, .inr ⟨_, hprogram, .inr ⟨samples, hsamples, .inr ⟨buffers, hbuffers,
        ?_⟩⟩⟩⟩
      exact mapM_target_eq_error_iff.mpr ⟨_, htarget, htexture, rfl⟩

end Catalogs

/-- A resolved item holds what the catalogs declare under the names that its item refers to. -/
structure ResolvedItem.FoundIn (r : ResolvedItem) (c : Catalogs) : Prop where
  item : c.items.get? r.name = some r.item
  program : c.programs.get? r.item.program = some r.program
  sampleNames : r.samples.map Prod.fst = r.item.sampledTextures r.program
  samples : ∀ sample ∈ r.samples, c.textures.get? sample.1 = some sample.2
  bufferRefs : r.buffers.map Prod.fst = r.item.attributeRefs
  buffers : ∀ buffer ∈ r.buffers, c.buffer? buffer.1 = some buffer.2
  targetName : r.target.map Prod.fst = r.item.targetTexture?
  target : ∀ target, r.target = some target → c.textures.get? target.1 = some target.2

namespace Catalogs

variable {c : Catalogs} {name : String} {r : ResolvedItem}

/-- **Resolving returns** the declarations that the item refers to. -/
theorem resolve_eq_ok_iff : c.resolve name = .ok r ↔ r.name = name ∧ r.FoundIn c := by
  -- each kind of reference is a list of look-ups, of which every result names its own key
  have htextures (names : List String) (samples : List (String × Texture)) :
      names.mapM (c.findTexture .texture) = .ok samples ↔ samples.map Prod.fst = names ∧
        ∀ sample ∈ samples, c.textures.get? sample.1 = some sample.2 :=
    mapM_eq_ok_iff_of_keyed fun _ _ => findTexture_eq_ok_iff
  have hbuffers (refs : List AttributeRef) (buffers : List (AttributeRef × Buffer)) :
      refs.mapM c.findBuffer = .ok buffers ↔ buffers.map Prod.fst = refs ∧
        ∀ buffer ∈ buffers, c.buffer? buffer.1 = some buffer.2 :=
    mapM_eq_ok_iff_of_keyed fun _ _ => findBuffer_eq_ok_iff
  simp only [resolve_eq_ok_iff_steps, htextures, hbuffers, mapM_target_eq_ok_iff]
  constructor
  · rintro ⟨item, hitem, program, hprogram, samples, ⟨hsampleNames, hsamples⟩, buffers,
      ⟨hbufferRefs, hbuffers⟩, target, ⟨htargetName, htarget⟩, rfl⟩
    exact ⟨rfl, hitem, hprogram, hsampleNames, hsamples, hbufferRefs, hbuffers, htargetName,
      htarget⟩
  · rintro ⟨rfl, h⟩
    exact ⟨r.item, h.item, r.program, h.program, r.samples, ⟨h.sampleNames, h.samples⟩, r.buffers,
      ⟨h.bufferRefs, h.buffers⟩, r.target, ⟨h.targetName, h.target⟩, rfl⟩

end Catalogs

end RenderPlan
