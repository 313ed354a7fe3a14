import PbMapper.App.State
import PbMapper.Foundation.Claims

/-!
# Starting and stopping tunnels

The tasks of one direction are claims that the entries of its map hold: what aborts,
restarts and drains keep of that, and of the listing.
-/

namespace PbMapper.App

namespace Tunnels

variable {Info : Type} {tunnels : Tunnels Info} {key : ServiceKey}

/-- The task that the map holds under a key. -/
def handleAt (tunnels : Tunnels Info) : ServiceKey → Option JoinHandle :=
  Claims.heldKey (fun runtime => some runtime.handle) tunnels.runtime

/-- The tasks that nobody has aborted are the tasks of the map, each under its key. -/
structure Stored (tunnels : Tunnels Info) : Prop where
  task : ∀ task ∈ tunnels.tasks, tunnels.handleAt task.key = some task.handle
  held : Claims.Held (tunnels.tasks.map TunnelTask.handle) tunnels.handleAt

/-- And exactly the keys of the map are listed. -/
structure Exact (tunnels : Tunnels Info) : Prop extends Stored tunnels where
  listed : ∀ key, key ∈ tunnels.listing ↔ key ∈ tunnels.runtime

theorem exact_new : (new : Tunnels Info).Exact where
  task _ htask := nomatch htask
  held := .empty
  listed _ := Iff.rfl

/-! ### Stopping a tunnel -/

theorem handleAt_abortRuntime (tunnels : Tunnels Info) (key : ServiceKey) :
    (tunnels.abortRuntime key).2.handleAt =
      Function.update tunnels.handleAt key none := by
  rw [abortRuntime]
  split
  · exact Claims.heldKey_erase _ _ key
  · rename_i hnone
    have hfree : tunnels.handleAt key = none := by
      rw [handleAt, Claims.heldKey, hnone]
      rfl
    rw [← hfree, Function.update_eq_self]

theorem listing_abortRuntime (tunnels : Tunnels Info) (key : ServiceKey) :
    (tunnels.abortRuntime key).2.listing = tunnels.listing := by
  rw [abortRuntime]
  split <;> rfl

theorem mem_abortRuntime {other : ServiceKey} :
    other ∈ (tunnels.abortRuntime key).2.runtime ↔
      other ≠ key ∧ other ∈ tunnels.runtime := by
  rw [abortRuntime]
  split
  · exact AList.mem_erase
  · rename_i hnone
    refine ⟨fun hmem => ⟨?_, hmem⟩, And.right⟩
    rintro rfl
    exact AList.lookup_eq_none.mp hnone hmem

theorem tasks_abortRuntime_subset :
    (tunnels.abortRuntime key).2.tasks ⊆ tunnels.tasks := by
  rw [abortRuntime]
  split
  · exact List.filter_sublist.subset
  · exact List.Subset.refl _

/-- Where the key has no tunnel, nothing is stopped. -/
theorem abortRuntime_of_free (hfree : key ∉ tunnels.runtime) :
    (tunnels.abortRuntime key).2 = tunnels := by
  rw [abortRuntime, AList.lookup_eq_none.mpr hfree]

theorem Stored.abortRuntime (hstored : tunnels.Stored) (key : ServiceKey) :
    (tunnels.abortRuntime key).2.Stored := by
  have hhandle := handleAt_abortRuntime tunnels key
  cases hlookup : tunnels.runtime.lookup key with
  | none => rwa [abortRuntime_of_free (AList.lookup_eq_none.mp hlookup)]
  | some runtime =>
      have hkey : tunnels.handleAt key = some runtime.handle := by
        rw [handleAt, Claims.heldKey, hlookup]
        rfl
      have htasks : (tunnels.abortRuntime key).2.tasks =
          tunnels.tasks.filter fun task => task.handle ≠ runtime.handle := by
        rw [Tunnels.abortRuntime, hlookup]
        rfl
      constructor
      · intro task htask
        rw [htasks, List.mem_filter, decide_eq_true_eq] at htask
        rw [hhandle, Function.update_of_ne, hstored.task task htask.1]
        rintro rfl
        have hsame := (hstored.task task htask.1).symm.trans hkey
        exact htask.2 (Option.some.inj hsame)
      · have herase : (tunnels.abortRuntime key).2.tasks.map TunnelTask.handle =
            (tunnels.tasks.map TunnelTask.handle).erase runtime.handle := by
          rw [htasks, hstored.held.nodup.erase_eq_filter, List.filter_map]
          congr 1
          apply List.filter_congr
          intro task _
          rw [decide_not]
          rfl
        rw [herase, hhandle]
        exact hstored.held.release hkey

theorem Exact.stop (hexact : tunnels.Exact) (key : ServiceKey) :
    ((tunnels.abortRuntime key).2.unlist key).Exact where
  task := (hexact.toStored.abortRuntime key).task
  held := (hexact.toStored.abortRuntime key).held
  listed other := by
    change other ∈ ((tunnels.abortRuntime key).2.listing.erase key) ↔
      other ∈ (tunnels.abortRuntime key).2.runtime
    rw [AList.mem_erase, listing_abortRuntime, mem_abortRuntime, hexact.listed]

/-- The map is drained of all that runs. -/
theorem Stored.drain (hstored : tunnels.Stored) : tunnels.drain.Exact := by
  have hnone : tunnels.drain.tasks = [] := by
    rw [Tunnels.drain, List.filter_eq_nil_iff]
    intro task htask
    have hhandle := hstored.task task htask
    rw [handleAt, Claims.heldKey, Option.bind_eq_some_iff] at hhandle
    obtain ⟨runtime, hlookup, hsame⟩ := hhandle
    have hany : tunnels.runtime.entries.any
        (fun entry => entry.2.handle == task.handle) = true := by
      rw [List.any_eq_true]
      refine ⟨⟨task.key, runtime⟩, (Table.mem_entries_iff _).mpr hlookup, ?_⟩
      exact beq_iff_eq.mpr (Option.some.inj hsame)
    rw [hany]
    exact Bool.false_ne_true
  constructor
  · constructor
    · rw [hnone]
      exact fun task htask => absurd htask List.not_mem_nil
    · rw [hnone]
      exact .empty
  · exact fun _ => Iff.rfl

/-! ### Starting a tunnel -/

/-- What both commits do with a task they have spawned. -/
def start (tunnels : Tunnels Info) (task : TunnelTask) (pin : PinnedTunnel)
    (info : Info) : Tunnels Info :=
  tunnels.spawn task |>.replaceRuntime task.key ⟨task.handle, pin⟩
    |>.list task.key info

variable {task : TunnelTask} {pin : PinnedTunnel} {info : Info}

theorem start_of_free (hfree : task.key ∉ tunnels.runtime) :
    tunnels.start task pin info =
      { runtime := tunnels.runtime.insert task.key ⟨task.handle, pin⟩
        listing := tunnels.listing.insert task.key info
        tasks := tunnels.tasks ++ [task] } := by
  rw [start, replaceRuntime]
  have hlookup : (tunnels.spawn task).runtime.lookup task.key = none :=
    AList.lookup_eq_none.mpr hfree
  rw [hlookup]
  rfl

/-- The new task is the one of its key, and no other is lost. -/
theorem Stored.start (hstored : tunnels.Stored)
    (hfree : task.key ∉ tunnels.runtime)
    (hfresh : ∀ other ∈ tunnels.tasks, other.handle ≠ task.handle) :
    (tunnels.start task pin info).Stored := by
  have hkey : tunnels.handleAt task.key = none := by
    rw [handleAt, Claims.heldKey, AList.lookup_eq_none.mpr hfree]
    rfl
  have hhandle : (tunnels.start task pin info).handleAt =
      Function.update tunnels.handleAt task.key (some task.handle) := by
    rw [start_of_free hfree]
    exact Claims.heldKey_insert ..
  have htasks : (tunnels.start task pin info).tasks = tunnels.tasks ++ [task] := by
    rw [start_of_free hfree]
  constructor
  · intro other hother
    rw [hhandle]
    rw [htasks, List.mem_append, List.mem_singleton] at hother
    rcases hother with hother | rfl
    · rw [Function.update_of_ne, hstored.task other hother]
      intro heq
      have htask := hstored.task other hother
      rw [heq, hkey] at htask
      cases htask
    · rw [Function.update_self]
  · have hnew : task.handle ∉ tunnels.tasks.map TunnelTask.handle := by
      rw [List.mem_map]
      rintro ⟨other, hother, heq⟩
      exact hfresh other hother heq
    rw [htasks, hhandle, List.map_append, List.map_singleton]
    exact (hstored.held.claim hkey hnew).perm (List.perm_append_singleton ..).symm

/-- A tunnel in place of the one of its key. -/
theorem Exact.restart (hexact : tunnels.Exact)
    (hfresh : ∀ other ∈ tunnels.tasks, other.handle ≠ task.handle) :
    ((tunnels.abortRuntime task.key).2.start task pin info).Exact := by
  have hfree : task.key ∉ (tunnels.abortRuntime task.key).2.runtime := by
    rw [mem_abortRuntime]
    exact fun hmem => hmem.1 rfl
  constructor
  · apply (hexact.toStored.abortRuntime task.key).start hfree
    intro other hother
    exact hfresh other (tasks_abortRuntime_subset hother)
  · intro other
    rw [start_of_free hfree, AList.mem_insert, AList.mem_insert, listing_abortRuntime,
      mem_abortRuntime, hexact.listed]
    by_cases heq : other = task.key <;> simp [heq]

end Tunnels

end PbMapper.App
