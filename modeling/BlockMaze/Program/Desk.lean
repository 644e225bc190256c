import BlockMaze.Program.Edit
import BlockMaze.Program.Listing

/-! Programs on a desk. The blocks of each program are on a sheet of its own, and edits are made on the sheet.
An unrolling is a sheet and a limit: it reads the sheet only when its commands are listed. -/
namespace BlockMaze

structure Folder where
  sheet : Nat
  index : Index := {}
  nextId : Int := 1

structure Unrolling where
  sheet : Nat
  limit : Int

structure Desk where
  sheets : List Forest := []
  folders : List Folder := []

namespace Desk

def read (desk : Desk) (sheet : Nat) : Forest := desk.sheets.getD sheet .empty

def add (desk : Desk) : Desk where
  sheets := desk.sheets ++ [.empty]
  folders := desk.folders ++ [{ sheet := desk.sheets.length }]

def program? (desk : Desk) (place : Nat) : Option Program :=
  desk.folders[place]?.map fun folder => ⟨desk.read folder.sheet, folder.index, folder.nextId⟩

/-- Changes a program. What becomes of its blocks, none of them left included, is on the same sheet. -/
def revise (place : Nat) (change : Program → Program) (desk : Desk) : Desk :=
  match desk.folders[place]? with
  | none => desk
  | some folder =>
    let later := change ⟨desk.read folder.sheet, folder.index, folder.nextId⟩
    { sheets := desk.sheets.set folder.sheet later.forest
      folders := desk.folders.set place { folder with index := later.index, nextId := later.nextId } }

def unrolling? (desk : Desk) (place : Nat) (limit : Int) : Option Unrolling :=
  desk.folders[place]?.map fun folder => ⟨folder.sheet, limit⟩

/-- The commands of an unrolling as the sheet has them now. -/
def list (desk : Desk) (unrolling : Unrolling) : List Command :=
  (desk.read unrolling.sheet).unroll unrolling.limit

end Desk

end BlockMaze
