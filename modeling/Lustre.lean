import Lustre.Basic
import Lustre.Lib.Bytes
import Lustre.Lib.Run
import Lustre.Lib.CArith
import Lustre.Linkea
import Lustre.Linkea.Spec
import Lustre.PackGeneric
import Lustre.PackGeneric.Spec
import Lustre.Lib.Scanf
import Lustre.NidStrings
import Lustre.NidStrings.RoundTrip
import Lustre.LibcfsString
import Lustre.NidStrings.NidList
import Lustre.Wbc.Reservation
import Lustre.Wbc.Reservation.Spec
import Lustre.Wbc.Sync
import Lustre.Wbc.Sync.Spec
import Lustre.Ldlm.Mode
import Lustre.Ldlm.Flock
import Lustre.Fid
import Lustre.Fid.Spec
import Lustre.Fld.Cache
import Lustre.Fld.Fixup
import Lustre.Fld.Insert
import Lustre.Fld.Refinement
import Lustre.Nodemap
import Lustre.Nodemap.Spec
import Lustre.Osc.Cache
import Lustre.Lib.Align
import Lustre.Osc.Cache.Tree
import Lustre.Osc.Cache.Spec
import Lustre.Lib.ConflictQueue
import Lustre.RangeLock
import Lustre.RangeLock.Spec
import Lustre.Lib.ReplayWindow
import Lustre.Gss.SeqWindow
import Lustre.Gss.SeqWindow.Spec
import Lustre.Lnet.MatchMd
import Lustre.Lnet.MatchMd.Spec
import Lustre.Lib.Gather
import Lustre.Lnet.LibMove
import Lustre.Lnet.LibMove.Spec
import Lustre.Lib.DownFill
import Lustre.NidStrings.Expand
import Lustre.NidStrings.Expand.Spec
import Lustre.NidStrings.MinMax
import Lustre.NidStrings.MinMax.Spec
import Lustre.Mdd.Changelog
import Lustre.Mdd.Changelog.Spec
import Lustre.Lib.SortedInsert
import Lustre.Ptlrpc.Xid
import Lustre.Ptlrpc.Xid.Spec
import Lustre.Wbc.MemfsPages
import Lustre.Wbc.MemfsPages.Spec
import Lustre.Osp.Precreate
import Lustre.Osp.Precreate.Spec
import Lustre.Target.Grant
import Lustre.Target.Grant.Spec
import Lustre.Lib.Raid0
import Lustre.Lov.Offset
import Lustre.Lov.Offset.Spec
import Lustre.IntervalTree
import Lustre.IntervalTree.Spec
import Lustre.Ldlm.Extent
import Lustre.Wbc.Cmd
import Lustre.Lib.ExceptPost
import Lustre.Wbc.Cmd.Spec
import Lustre.Wbc.Flush
import Lustre.Wbc.Flush.Spec
import Lustre.Wbc.Rmfid
import Lustre.Wbc.Rmfid.Spec
import Lustre.Ldlm.Flock.Spec
import Lustre.Lib.Glob
import Lustre.Ptlrpc.NrsTbf
import Lustre.Ptlrpc.NrsTbf.Spec
import Lustre.Obdclass.Llog
import Lustre.Obdclass.Llog.Spec
import Lustre.Lib.Fls
import Lustre.Lib.CString
import Lustre.Obdclass.StringToSize
import Lustre.Obdclass.StringToSize.Spec
import Lustre.PackGeneric.Pack
import Lustre.PackGeneric.Layout
import Lustre.Lmv
import Lustre.Lmv.Spec
import Lustre.Lib.Keyed
import Lustre.Lib.LinearProbe
import Lustre.Osc.Cache.Ledger
import Lustre.Osc.Grant
import Lustre.Osc.Grant.Spec
import Lustre.Lib.Footprint
import Lustre.Lov.Ea
import Lustre.Lov.Ea.Spec
import Lustre.Llapi.Layout
import Lustre.Lod.QosRr
import Lustre.Lod.QosRr.Spec
import Lustre.Quota.Qunit
import Lustre.Quota.Qunit.Spec
import Lustre.Lib.Waiters
import Lustre.Lnet.Router
import Lustre.Lnet.Router.Spec
import Lustre.Ptlrpc.At
import Lustre.Ptlrpc.At.Spec
import Lustre.Lib.PagedArray
import Lustre.Ptlrpc.SecBulk
import Lustre.Ptlrpc.SecBulk.Spec
import Lustre.Lov.Div64
import Lustre.LibcfsString.ExprList
import Lustre.Ldlm.Pool
import Lustre.Ldlm.Pool.Spec
