import PhoenixLens.Index.Cache
import PhoenixLens.Proofs.Model.Survival

/-!
# Caches survive being written

What is written of an index is read back as it is: all entities, digests and roots of the six
registries, and the stamps of the files, which come back in order of their names.
-/

namespace PhoenixLens

open Json (Survives)

variable {α : Type} {depth : Nat}

/-! ### Snapshots -/

namespace RegistrySnapshot

theorem survives_pair {β : Type} {decode : Json → Option β} {value : Json} {path : Path} {b : β}
    (h : Survives depth decode value b) :
    Survives (depth + 1) (decodePair decode) (.arr [path.encode, value]) (path, b) := by
  refine ⟨.arr ?_, ?_⟩
  · simp only [List.mem_cons, List.not_mem_nil, or_false, forall_eq_or_imp, forall_eq]
    exact ⟨.str _, h.written⟩
  · have hPath : Path.decode path.encode.ordered = some path := rfl
    simp only [Json.ordered, Json.orderedItems, decodePair, hPath, h.decoded]
    rfl

theorem survives {encode : α → Json} {decode : Json → Option α} {snapshot : RegistrySnapshot α}
    (h : ∀ e ∈ snapshot.entries, ∀ a ∈ e.2, Survives depth decode (encode a) a) :
    Survives (depth + 4) (RegistrySnapshot.decode decode) (snapshot.encode encode) snapshot :=
  .record (by simp) fun _ =>
    .required (.list fun e he => survives_pair (.list fun a ha => h e he a ha)) <|
    .required (.list fun e _ => survives_pair (.str e.2)) <|
    .withDefault (.option nofun fun root _ => .path root) .done

end RegistrySnapshot

namespace IndexSnapshot

def registry (snapshot : IndexSnapshot) : (kind : EntityKind) → RegistrySnapshot kind.Entity
  | .components => snapshot.components
  | .routes => snapshot.routes
  | .events => snapshot.events
  | .schemas => snapshot.schemas
  | .templates => snapshot.templates
  | .controllers => snapshot.controllers

/-- All lines have numbers of 32 bits. -/
def FitsLines (snapshot : IndexSnapshot) : Prop :=
  ∀ kind, ∀ e ∈ (snapshot.registry kind).entries, ∀ entity ∈ e.2, kind.FitsLines entity

theorem FitsLines.survives {snapshot : IndexSnapshot} (h : snapshot.FitsLines) :
    Survives (depth + 11) decode snapshot.encode snapshot := by
  have hKind (kind : EntityKind) : Survives (depth + 10) (RegistrySnapshot.decode kind.decodeEntity)
      ((snapshot.registry kind).encode kind.encodeEntity) (snapshot.registry kind) :=
    RegistrySnapshot.survives fun e he entity hEntity =>
      EntityKind.survives (h kind e he entity hEntity)
  exact .record (by simp) fun _ =>
    .withDefault (hKind .components) <| .withDefault (hKind .routes) <|
    .withDefault (hKind .events) <| .withDefault (hKind .schemas) <|
    .withDefault (hKind .templates) <| .withDefault (hKind .controllers) .done

end IndexSnapshot

/-! ### Stamps -/

namespace FileStamp

/-- The numbers of the stamp are of 64 bits. -/
structure Fits (stamp : FileStamp) : Prop where
  modified : stamp.modified < UInt64.size
  size : stamp.size < UInt64.size

theorem survives {stamp : FileStamp} (h : stamp.Fits) :
    Survives (depth + 1) decode stamp.encode stamp :=
  .record (by simp) fun _ =>
    .required (.nat (Nat.le_refl _) h.modified) <| .required (.nat (Nat.le_refl _) h.size) .done

end FileStamp

namespace CacheMetadata

/-- Of different names, each counts where it stands. -/
theorem keepLast_eq_self {stamps : List (String × FileStamp)}
    (hNames : (stamps.map (·.1)).Nodup) :
    stamps.foldl (fun kept s => kept.filter (fun k => k.1 != s.1) ++ [s]) [] = stamps := by
  induction stamps using List.reverseRecOn with
  | nil => rfl
  | append_singleton stamps stamp ih =>
    rw [List.map_append, List.nodup_append] at hNames
    obtain ⟨hBefore, -, hApart⟩ := hNames
    rw [List.foldl_concat, ih hBefore, List.filter_eq_self.mpr]
    intro k hk
    simpa using hApart _ (List.mem_map_of_mem hk) _ (List.mem_singleton_self stamp.1)

theorem mapM_decode {stamps : List (String × FileStamp)} (h : ∀ s ∈ stamps, s.2.Fits) :
    (Json.mapValues Json.ordered (Json.mapValues FileStamp.encode stamps)).mapM
      (fun (path, value) => do return (path, ← FileStamp.decode value)) = some stamps := by
  induction stamps with
  | nil => rfl
  | cons s stamps ih =>
    have hFirst : FileStamp.decode s.2.encode.ordered = some s.2 :=
      (FileStamp.survives (h s List.mem_cons_self) : Survives 1 _ _ _).decoded
    have hRest := ih fun t ht => h t (List.mem_cons_of_mem _ ht)
    simp only [Json.mapValues, List.map_cons, List.mapM_cons, hFirst] at hRest ⊢
    rw [hRest]
    rfl

theorem survives_stamps {stamps : List (String × FileStamp)} (hNames : (stamps.map (·.1)).Nodup)
    (h : ∀ s ∈ stamps, s.2.Fits) :
    Survives (depth + 2) decodeStamps (.obj (stamps.map fun (path, stamp) => (path, stamp.encode)))
      (Json.byName stamps) := by
  have hMembers : stamps.map (fun (path, stamp) => (path, FileStamp.encode stamp)) =
      Json.mapValues FileStamp.encode stamps := rfl
  rw [hMembers]
  refine ⟨.obj ?_ ?_, ?_⟩
  · rwa [Json.map_fst_mapValues]
  · intro m hm
    obtain ⟨s, hs, rfl⟩ := List.mem_map.mp hm
    exact (FileStamp.survives (h s hs)).written
  · rw [Json.ordered, Json.orderedMembers_eq, ← Json.mapValues_byName, ← Json.mapValues_byName]
    have hFits : ∀ s ∈ Json.byName stamps, s.2.Fits := fun s hs =>
      h s ((Json.byName_perm hNames).mem_iff.mp hs)
    rw [decodeStamps, mapM_decode hFits]
    exact congrArg some (keepLast_eq_self (Json.nodup_byName hNames))

theorem survives {metadata : CacheMetadata} (hVersion : metadata.version < UInt32.size)
    (hTime : metadata.timestamp < UInt64.size) (hNames : (metadata.files.map (·.1)).Nodup)
    (hStamps : ∀ s ∈ metadata.files, s.2.Fits) :
    Survives (depth + 3) decode metadata.encode
      { metadata with files := Json.byName metadata.files } :=
  .record (by simp) fun _ =>
    .required (survives_line hVersion) <| .required (.str _) <|
    .required (.nat (Nat.le_refl _) hTime) <| .required (.path _) <|
    .required (survives_stamps hNames hStamps) .done

end CacheMetadata

namespace CacheDocument

theorem survives {document : CacheDocument} {metadata : CacheMetadata}
    (hMetadata : Survives (depth + 11) CacheMetadata.decode document.metadata.encode metadata)
    (hIndex : document.index.FitsLines) :
    Survives (depth + 12) decode document.encode { document with metadata } :=
  .record (by simp) fun _ => .required hMetadata <| .withDefault hIndex.survives .done

end CacheDocument

end PhoenixLens
