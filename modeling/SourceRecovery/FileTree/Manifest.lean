import SourceRecovery.FileTree.Basic
import SourceRecovery.Text.Pieces

/-!
# Manifests

A file tree as lines of text. A line tells of one node: its kind, the path that leads to it from the
root, and what it holds, with a tab between each two. The bytes of a file are written in hexadecimal
digits. A folder on the way to a node needs no line of its own, and of two lines about one address
the later counts.

* `Manifest.entry?` reads a line.
* `FileTree.ofManifest?` reads the lines of a tree.
-/

namespace SourceRecovery

namespace Manifest

/-- The value of a hexadecimal digit. -/
def digit? (c : Char) : Option UInt8 :=
  ("0123456789abcdef".toList.findIdx? (· == c.toLower)).map UInt8.ofNat

/-- The bytes that pairs of hexadecimal digits spell. -/
def bytes? : List Char → Option Bytes
  | [] => some []
  | [_] => none
  | high :: low :: rest => do
    let h ← digit? high
    let l ← digit? low
    let bs ← bytes? rest
    pure ((h * 16 + l) :: bs)

/-- The address that a path names; it cannot lead upward. -/
def address? (path : String) : Option Address :=
  (Path.ofText path).components.foldr
    (fun c names => match c with
      | .name w => names.map (w :: ·)
      | .up => none
      | .root | .here => names)
    (some [])

/-- The node that a line tells of, and its address. -/
def entry? (line : String) : Option (Address × Node) :=
  match Text.pieces (· == '\t') line with
  | ["folder", path] => (address? path).map fun a => (a, .folder)
  | ["file", path, content] => do
    let a ← address? path
    let bs ← bytes? content.toList
    pure (a, .file bs)
  | ["link", path, target] => (address? path).map fun a => (a, .link target)
  | _ => none

end Manifest

namespace FileTree

/-- The tree with a folder at each address on the way from `front` along some names. -/
def withWay (t : FileTree) (front : Address) : List Name → FileTree
  | [] => t
  | name :: names =>
    let a := front ++ [name]
    withWay (if t.node? a = some .folder then t else t.place a .folder) a names

/-- The tree with a node at an address, and folders on the way to it. A folder that is there keeps
    what it holds. -/
def withNode (t : FileTree) (a : Address) (n : Node) : FileTree :=
  if n = .folder then t.withWay [] a else (t.withWay [] a.dropLast).place a n

/-- The tree that some lines tell of, or the first line that says nothing. -/
def ofManifest? (lines : List String) : Except String FileTree :=
  lines.foldlM
    (fun t line => match Manifest.entry? line with
      | some (a, n) => .ok (t.withNode a n)
      | none => .error line)
    empty

end FileTree

end SourceRecovery
