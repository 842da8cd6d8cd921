import Mathlib.Data.List.Basic

/-!
# The tables of system call numbers

The data of `syscall/sysnums.list` and of the headers `syscall/sysnums-*.h`.
-/

namespace PRoot

/-- `Sysnum`, the names of `sysnums.list`. -/
inductive Sysnum
  | PR_void | PR_ARM_BASE | PR_ARM_breakpoint | PR_ARM_cacheflush | PR_ARM_set_tls | PR_ARM_usr26
  | PR_ARM_usr32 | PR_X32_SYSCALL_BIT | PR__llseek | PR__newselect | PR__sysctl | PR_accept
  | PR_accept4 | PR_access | PR_acct | PR_add_key | PR_adjtimex | PR_afs_syscall | PR_alarm
  | PR_arch_prctl | PR_arch_specific_syscall | PR_arm_fadvise64_64 | PR_arm_sync_file_range
  | PR_bdflush | PR_bind | PR_bpf | PR_break | PR_brk | PR_cacheflush | PR_capget | PR_capset
  | PR_chdir | PR_chmod | PR_chown | PR_chown32 | PR_chroot | PR_clock_adjtime | PR_clock_getres
  | PR_clock_gettime | PR_clock_nanosleep | PR_clock_settime | PR_clone | PR_clone3 | PR_close
  | PR_connect | PR_copy_file_range | PR_creat | PR_create_module | PR_delete_module | PR_dup
  | PR_dup2 | PR_dup3 | PR_epoll_create | PR_epoll_create1 | PR_epoll_ctl | PR_epoll_ctl_old
  | PR_epoll_pwait | PR_epoll_wait | PR_epoll_wait_old | PR_eventfd | PR_eventfd2 | PR_execve
  | PR_execveat | PR_exit | PR_exit_group | PR_faccessat | PR_faccessat2 | PR_fadvise64
  | PR_fadvise64_64 | PR_fallocate | PR_fanotify_init | PR_fanotify_mark | PR_fchdir | PR_fchmod
  | PR_fchmodat | PR_fchown | PR_fchown32 | PR_fchownat | PR_fcntl | PR_fcntl64 | PR_fdatasync
  | PR_fgetxattr | PR_finit_module | PR_flistxattr | PR_flock | PR_fork | PR_fremovexattr
  | PR_fsetxattr | PR_fstat | PR_fstat64 | PR_fstatat64 | PR_fstatfs | PR_fstatfs64 | PR_fsync
  | PR_ftime | PR_ftruncate | PR_ftruncate64 | PR_futex | PR_futimesat | PR_get_kernel_syms
  | PR_get_mempolicy | PR_get_robust_list | PR_get_thread_area | PR_getcpu | PR_getcwd
  | PR_getdents | PR_getdents64 | PR_getegid | PR_getegid32 | PR_geteuid | PR_geteuid32
  | PR_getgid | PR_getgid32 | PR_getgroups | PR_getgroups32 | PR_getitimer | PR_getpeername
  | PR_getpgid | PR_getpgrp | PR_getpid | PR_getpmsg | PR_getppid | PR_getpriority | PR_getrandom
  | PR_getresgid | PR_getresgid32 | PR_getresuid | PR_getresuid32 | PR_getrlimit | PR_getrusage
  | PR_getsid | PR_getsockname | PR_getsockopt | PR_gettid | PR_gettimeofday | PR_getuid
  | PR_getuid32 | PR_getxattr | PR_gtty | PR_idle | PR_init_module | PR_inotify_add_watch
  | PR_inotify_init | PR_inotify_init1 | PR_inotify_rm_watch | PR_io_cancel | PR_io_destroy
  | PR_io_getevents | PR_io_setup | PR_io_submit | PR_ioctl | PR_ioperm | PR_iopl | PR_ioprio_get
  | PR_ioprio_set | PR_ipc | PR_kcmp | PR_kexec_file_load | PR_kexec_load | PR_keyctl | PR_kill
  | PR_lchown | PR_lchown32 | PR_lgetxattr | PR_link | PR_linkat | PR_listen | PR_listxattr
  | PR_llistxattr | PR_lock | PR_lookup_dcookie | PR_lremovexattr | PR_lseek | PR_lsetxattr
  | PR_lstat | PR_lstat64 | PR_madvise | PR_mbind | PR_membarrier | PR_memfd_create
  | PR_migrate_pages | PR_mincore | PR_mkdir | PR_mkdirat | PR_mknod | PR_mknodat | PR_mlock
  | PR_mlock2 | PR_mlockall | PR_mmap | PR_mmap2 | PR_modify_ldt | PR_mount | PR_move_pages
  | PR_mprotect | PR_mpx | PR_mq_getsetattr | PR_mq_notify | PR_mq_open | PR_mq_timedreceive
  | PR_mq_timedsend | PR_mq_unlink | PR_mremap | PR_msgctl | PR_msgget | PR_msgrcv | PR_msgsnd
  | PR_msync | PR_munlock | PR_munlockall | PR_munmap | PR_name_to_handle_at | PR_nanosleep
  | PR_newfstatat | PR_nfsservctl | PR_nice | PR_oldfstat | PR_oldlstat | PR_oldolduname
  | PR_oldstat | PR_olduname | PR_open | PR_open_by_handle_at | PR_openat | PR_openat2 | PR_pause
  | PR_pciconfig_iobase | PR_pciconfig_read | PR_pciconfig_write | PR_perf_event_open
  | PR_personality | PR_pipe | PR_pipe2 | PR_pivot_root | PR_pkey_alloc | PR_pkey_free
  | PR_pkey_mprotect | PR_poll | PR_ppoll | PR_prctl | PR_pread64 | PR_preadv | PR_preadv2
  | PR_prlimit64 | PR_process_vm_readv | PR_process_vm_writev | PR_prof | PR_profil | PR_pselect6
  | PR_ptrace | PR_putpmsg | PR_pwrite64 | PR_pwritev | PR_pwritev2 | PR_query_module
  | PR_quotactl | PR_read | PR_readahead | PR_readdir | PR_readlink | PR_readlinkat | PR_readv
  | PR_reboot | PR_recv | PR_recvfrom | PR_recvmmsg | PR_recvmsg | PR_remap_file_pages
  | PR_removexattr | PR_rename | PR_renameat | PR_renameat2 | PR_request_key | PR_restart_syscall
  | PR_rmdir | PR_rt_sigaction | PR_rt_sigpending | PR_rt_sigprocmask | PR_rt_sigqueueinfo
  | PR_rt_sigreturn | PR_rt_sigsuspend | PR_rt_sigtimedwait | PR_rt_tgsigqueueinfo
  | PR_sched_get_priority_max | PR_sched_get_priority_min | PR_sched_getaffinity
  | PR_sched_getattr | PR_sched_getparam | PR_sched_getscheduler | PR_sched_rr_get_interval
  | PR_sched_setaffinity | PR_sched_setattr | PR_sched_setparam | PR_sched_setscheduler
  | PR_sched_yield | PR_seccomp | PR_security | PR_select | PR_semctl | PR_semget | PR_semop
  | PR_semtimedop | PR_send | PR_sendfile | PR_sendfile64 | PR_sendmmsg | PR_sendmsg | PR_sendto
  | PR_set_mempolicy | PR_set_robust_list | PR_set_thread_area | PR_set_tid_address
  | PR_setdomainname | PR_setfsgid | PR_setfsgid32 | PR_setfsuid | PR_setfsuid32 | PR_setgid
  | PR_setgid32 | PR_setgroups | PR_setgroups32 | PR_sethostname | PR_setitimer | PR_setns
  | PR_setpgid | PR_setpriority | PR_setregid | PR_setregid32 | PR_setresgid | PR_setresgid32
  | PR_setresuid | PR_setresuid32 | PR_setreuid | PR_setreuid32 | PR_setrlimit | PR_setsid
  | PR_setsockopt | PR_settimeofday | PR_setuid | PR_setuid32 | PR_setxattr | PR_sgetmask
  | PR_shmat | PR_shmctl | PR_shmdt | PR_shmget | PR_shutdown | PR_sigaction | PR_sigaltstack
  | PR_signal | PR_signalfd | PR_signalfd4 | PR_sigpending | PR_sigprocmask | PR_sigreturn
  | PR_sigsuspend | PR_socket | PR_socketcall | PR_socketpair | PR_splice | PR_ssetmask | PR_stat
  | PR_stat64 | PR_statfs | PR_statfs64 | PR_statx | PR_stime | PR_stty | PR_swapoff | PR_swapon
  | PR_symlink | PR_symlinkat | PR_sync | PR_sync_file_range | PR_sync_file_range2 | PR_syncfs
  | PR_sysfs | PR_sysinfo | PR_syslog | PR_tee | PR_tgkill | PR_time | PR_timer_create
  | PR_timer_delete | PR_timer_getoverrun | PR_timer_gettime | PR_timer_settime
  | PR_timerfd_create | PR_timerfd_gettime | PR_timerfd_settime | PR_times | PR_tkill
  | PR_truncate | PR_truncate64 | PR_tuxcall | PR_ugetrlimit | PR_ulimit | PR_umask | PR_umount
  | PR_umount2 | PR_uname | PR_unlink | PR_unlinkat | PR_unshare | PR_uselib | PR_userfaultfd
  | PR_ustat | PR_utime | PR_utimensat | PR_utimes | PR_vfork | PR_vhangup | PR_vm86 | PR_vm86old
  | PR_vmsplice | PR_vserver | PR_wait4 | PR_waitid | PR_waitpid | PR_write | PR_writev
  | PR_x32_execve | PR_x32_get_robust_list | PR_x32_ioctl | PR_x32_kexec_load | PR_x32_move_pages
  | PR_x32_mq_notify | PR_x32_preadv | PR_x32_process_vm_readv | PR_x32_process_vm_writev
  | PR_x32_ptrace | PR_x32_pwritev | PR_x32_readv | PR_x32_recvfrom | PR_x32_recvmmsg
  | PR_x32_recvmsg | PR_x32_rt_sigaction | PR_x32_rt_sigpending | PR_x32_rt_sigqueueinfo
  | PR_x32_rt_sigreturn | PR_x32_rt_sigtimedwait | PR_x32_rt_tgsigqueueinfo | PR_x32_sendmmsg
  | PR_x32_sendmsg | PR_x32_set_robust_list | PR_x32_sigaltstack | PR_x32_timer_create
  | PR_x32_vmsplice | PR_x32_waitid | PR_x32_writev
  deriving DecidableEq, Repr

/-- A table of system call numbers: the numbers it names, as its designated
initializers list them.  What is left out is `PR_void`. -/
structure SysnumTable where
  entries : List (Nat × Sysnum)
  deriving DecidableEq, Repr

/-- `sysnums_x86_64`. -/
def sysnumsX8664 : SysnumTable := ⟨[
  (0, .PR_read), (1, .PR_write), (2, .PR_open), (3, .PR_close), (4, .PR_stat), (5, .PR_fstat),
  (6, .PR_lstat), (7, .PR_poll), (8, .PR_lseek), (9, .PR_mmap), (10, .PR_mprotect),
  (11, .PR_munmap), (12, .PR_brk), (13, .PR_rt_sigaction), (14, .PR_rt_sigprocmask),
  (15, .PR_rt_sigreturn), (16, .PR_ioctl), (17, .PR_pread64), (18, .PR_pwrite64),
  (19, .PR_readv), (20, .PR_writev), (21, .PR_access), (22, .PR_pipe), (23, .PR_select),
  (24, .PR_sched_yield), (25, .PR_mremap), (26, .PR_msync), (27, .PR_mincore), (28, .PR_madvise),
  (29, .PR_shmget), (30, .PR_shmat), (31, .PR_shmctl), (32, .PR_dup), (33, .PR_dup2),
  (34, .PR_pause), (35, .PR_nanosleep), (36, .PR_getitimer), (37, .PR_alarm),
  (38, .PR_setitimer), (39, .PR_getpid), (40, .PR_sendfile), (41, .PR_socket), (42, .PR_connect),
  (43, .PR_accept), (44, .PR_sendto), (45, .PR_recvfrom), (46, .PR_sendmsg), (47, .PR_recvmsg),
  (48, .PR_shutdown), (49, .PR_bind), (50, .PR_listen), (51, .PR_getsockname),
  (52, .PR_getpeername), (53, .PR_socketpair), (54, .PR_setsockopt), (55, .PR_getsockopt),
  (56, .PR_clone), (57, .PR_fork), (58, .PR_vfork), (59, .PR_execve), (60, .PR_exit),
  (61, .PR_wait4), (62, .PR_kill), (63, .PR_uname), (64, .PR_semget), (65, .PR_semop),
  (66, .PR_semctl), (67, .PR_shmdt), (68, .PR_msgget), (69, .PR_msgsnd), (70, .PR_msgrcv),
  (71, .PR_msgctl), (72, .PR_fcntl), (73, .PR_flock), (74, .PR_fsync), (75, .PR_fdatasync),
  (76, .PR_truncate), (77, .PR_ftruncate), (78, .PR_getdents), (79, .PR_getcwd), (80, .PR_chdir),
  (81, .PR_fchdir), (82, .PR_rename), (83, .PR_mkdir), (84, .PR_rmdir), (85, .PR_creat),
  (86, .PR_link), (87, .PR_unlink), (88, .PR_symlink), (89, .PR_readlink), (90, .PR_chmod),
  (91, .PR_fchmod), (92, .PR_chown), (93, .PR_fchown), (94, .PR_lchown), (95, .PR_umask),
  (96, .PR_gettimeofday), (97, .PR_getrlimit), (98, .PR_getrusage), (99, .PR_sysinfo),
  (100, .PR_times), (101, .PR_ptrace), (102, .PR_getuid), (103, .PR_syslog), (104, .PR_getgid),
  (105, .PR_setuid), (106, .PR_setgid), (107, .PR_geteuid), (108, .PR_getegid),
  (109, .PR_setpgid), (110, .PR_getppid), (111, .PR_getpgrp), (112, .PR_setsid),
  (113, .PR_setreuid), (114, .PR_setregid), (115, .PR_getgroups), (116, .PR_setgroups),
  (117, .PR_setresuid), (118, .PR_getresuid), (119, .PR_setresgid), (120, .PR_getresgid),
  (121, .PR_getpgid), (122, .PR_setfsuid), (123, .PR_setfsgid), (124, .PR_getsid),
  (125, .PR_capget), (126, .PR_capset), (127, .PR_rt_sigpending), (128, .PR_rt_sigtimedwait),
  (129, .PR_rt_sigqueueinfo), (130, .PR_rt_sigsuspend), (131, .PR_sigaltstack), (132, .PR_utime),
  (133, .PR_mknod), (134, .PR_uselib), (135, .PR_personality), (136, .PR_ustat),
  (137, .PR_statfs), (138, .PR_fstatfs), (139, .PR_sysfs), (140, .PR_getpriority),
  (141, .PR_setpriority), (142, .PR_sched_setparam), (143, .PR_sched_getparam),
  (144, .PR_sched_setscheduler), (145, .PR_sched_getscheduler),
  (146, .PR_sched_get_priority_max), (147, .PR_sched_get_priority_min),
  (148, .PR_sched_rr_get_interval), (149, .PR_mlock), (150, .PR_munlock), (151, .PR_mlockall),
  (152, .PR_munlockall), (153, .PR_vhangup), (154, .PR_modify_ldt), (155, .PR_pivot_root),
  (156, .PR__sysctl), (157, .PR_prctl), (158, .PR_arch_prctl), (159, .PR_adjtimex),
  (160, .PR_setrlimit), (161, .PR_chroot), (162, .PR_sync), (163, .PR_acct),
  (164, .PR_settimeofday), (165, .PR_mount), (166, .PR_umount2), (167, .PR_swapon),
  (168, .PR_swapoff), (169, .PR_reboot), (170, .PR_sethostname), (171, .PR_setdomainname),
  (172, .PR_iopl), (173, .PR_ioperm), (174, .PR_create_module), (175, .PR_init_module),
  (176, .PR_delete_module), (177, .PR_get_kernel_syms), (178, .PR_query_module),
  (179, .PR_quotactl), (180, .PR_nfsservctl), (181, .PR_getpmsg), (182, .PR_putpmsg),
  (183, .PR_afs_syscall), (184, .PR_tuxcall), (185, .PR_security), (186, .PR_gettid),
  (187, .PR_readahead), (188, .PR_setxattr), (189, .PR_lsetxattr), (190, .PR_fsetxattr),
  (191, .PR_getxattr), (192, .PR_lgetxattr), (193, .PR_fgetxattr), (194, .PR_listxattr),
  (195, .PR_llistxattr), (196, .PR_flistxattr), (197, .PR_removexattr), (198, .PR_lremovexattr),
  (199, .PR_fremovexattr), (200, .PR_tkill), (201, .PR_time), (202, .PR_futex),
  (203, .PR_sched_setaffinity), (204, .PR_sched_getaffinity), (205, .PR_set_thread_area),
  (206, .PR_io_setup), (207, .PR_io_destroy), (208, .PR_io_getevents), (209, .PR_io_submit),
  (210, .PR_io_cancel), (211, .PR_get_thread_area), (212, .PR_lookup_dcookie),
  (213, .PR_epoll_create), (214, .PR_epoll_ctl_old), (215, .PR_epoll_wait_old),
  (216, .PR_remap_file_pages), (217, .PR_getdents64), (218, .PR_set_tid_address),
  (219, .PR_restart_syscall), (220, .PR_semtimedop), (221, .PR_fadvise64),
  (222, .PR_timer_create), (223, .PR_timer_settime), (224, .PR_timer_gettime),
  (225, .PR_timer_getoverrun), (226, .PR_timer_delete), (227, .PR_clock_settime),
  (228, .PR_clock_gettime), (229, .PR_clock_getres), (230, .PR_clock_nanosleep),
  (231, .PR_exit_group), (232, .PR_epoll_wait), (233, .PR_epoll_ctl), (234, .PR_tgkill),
  (235, .PR_utimes), (236, .PR_vserver), (237, .PR_mbind), (238, .PR_set_mempolicy),
  (239, .PR_get_mempolicy), (240, .PR_mq_open), (241, .PR_mq_unlink), (242, .PR_mq_timedsend),
  (243, .PR_mq_timedreceive), (244, .PR_mq_notify), (245, .PR_mq_getsetattr),
  (246, .PR_kexec_load), (247, .PR_waitid), (248, .PR_add_key), (249, .PR_request_key),
  (250, .PR_keyctl), (251, .PR_ioprio_set), (252, .PR_ioprio_get), (253, .PR_inotify_init),
  (254, .PR_inotify_add_watch), (255, .PR_inotify_rm_watch), (256, .PR_migrate_pages),
  (257, .PR_openat), (258, .PR_mkdirat), (259, .PR_mknodat), (260, .PR_fchownat),
  (261, .PR_futimesat), (262, .PR_newfstatat), (263, .PR_unlinkat), (264, .PR_renameat),
  (265, .PR_linkat), (266, .PR_symlinkat), (267, .PR_readlinkat), (268, .PR_fchmodat),
  (269, .PR_faccessat), (270, .PR_pselect6), (271, .PR_ppoll), (272, .PR_unshare),
  (273, .PR_set_robust_list), (274, .PR_get_robust_list), (275, .PR_splice), (276, .PR_tee),
  (277, .PR_sync_file_range), (278, .PR_vmsplice), (279, .PR_move_pages), (280, .PR_utimensat),
  (281, .PR_epoll_pwait), (282, .PR_signalfd), (283, .PR_timerfd_create), (284, .PR_eventfd),
  (285, .PR_fallocate), (286, .PR_timerfd_settime), (287, .PR_timerfd_gettime),
  (288, .PR_accept4), (289, .PR_signalfd4), (290, .PR_eventfd2), (291, .PR_epoll_create1),
  (292, .PR_dup3), (293, .PR_pipe2), (294, .PR_inotify_init1), (295, .PR_preadv),
  (296, .PR_pwritev), (297, .PR_rt_tgsigqueueinfo), (298, .PR_perf_event_open),
  (299, .PR_recvmmsg), (300, .PR_fanotify_init), (301, .PR_fanotify_mark), (302, .PR_prlimit64),
  (303, .PR_name_to_handle_at), (304, .PR_open_by_handle_at), (305, .PR_clock_adjtime),
  (306, .PR_syncfs), (307, .PR_sendmmsg), (308, .PR_setns), (309, .PR_getcpu),
  (310, .PR_process_vm_readv), (311, .PR_process_vm_writev), (312, .PR_kcmp),
  (313, .PR_finit_module), (314, .PR_sched_setattr), (315, .PR_sched_getattr),
  (316, .PR_renameat2), (317, .PR_seccomp), (318, .PR_getrandom), (319, .PR_memfd_create),
  (320, .PR_kexec_file_load), (321, .PR_bpf), (322, .PR_execveat), (323, .PR_userfaultfd),
  (324, .PR_membarrier), (325, .PR_mlock2), (326, .PR_copy_file_range), (327, .PR_preadv2),
  (328, .PR_pwritev2), (329, .PR_pkey_mprotect), (330, .PR_pkey_alloc), (331, .PR_pkey_free),
  (332, .PR_statx), (435, .PR_clone3), (437, .PR_openat2), (439, .PR_faccessat2)]⟩

/-- `sysnums_i386`. -/
def sysnumsI386 : SysnumTable := ⟨[
  (0, .PR_restart_syscall), (1, .PR_exit), (2, .PR_fork), (3, .PR_read), (4, .PR_write),
  (5, .PR_open), (6, .PR_close), (7, .PR_waitpid), (8, .PR_creat), (9, .PR_link),
  (10, .PR_unlink), (11, .PR_execve), (12, .PR_chdir), (13, .PR_time), (14, .PR_mknod),
  (15, .PR_chmod), (16, .PR_lchown), (17, .PR_break), (18, .PR_oldstat), (19, .PR_lseek),
  (20, .PR_getpid), (21, .PR_mount), (22, .PR_umount), (23, .PR_setuid), (24, .PR_getuid),
  (25, .PR_stime), (26, .PR_ptrace), (27, .PR_alarm), (28, .PR_oldfstat), (29, .PR_pause),
  (30, .PR_utime), (31, .PR_stty), (32, .PR_gtty), (33, .PR_access), (34, .PR_nice),
  (35, .PR_ftime), (36, .PR_sync), (37, .PR_kill), (38, .PR_rename), (39, .PR_mkdir),
  (40, .PR_rmdir), (41, .PR_dup), (42, .PR_pipe), (43, .PR_times), (44, .PR_prof), (45, .PR_brk),
  (46, .PR_setgid), (47, .PR_getgid), (48, .PR_signal), (49, .PR_geteuid), (50, .PR_getegid),
  (51, .PR_acct), (52, .PR_umount2), (53, .PR_lock), (54, .PR_ioctl), (55, .PR_fcntl),
  (56, .PR_mpx), (57, .PR_setpgid), (58, .PR_ulimit), (59, .PR_oldolduname), (60, .PR_umask),
  (61, .PR_chroot), (62, .PR_ustat), (63, .PR_dup2), (64, .PR_getppid), (65, .PR_getpgrp),
  (66, .PR_setsid), (67, .PR_sigaction), (68, .PR_sgetmask), (69, .PR_ssetmask),
  (70, .PR_setreuid), (71, .PR_setregid), (72, .PR_sigsuspend), (73, .PR_sigpending),
  (74, .PR_sethostname), (75, .PR_setrlimit), (76, .PR_getrlimit), (77, .PR_getrusage),
  (78, .PR_gettimeofday), (79, .PR_settimeofday), (80, .PR_getgroups), (81, .PR_setgroups),
  (82, .PR_select), (83, .PR_symlink), (84, .PR_oldlstat), (85, .PR_readlink), (86, .PR_uselib),
  (87, .PR_swapon), (88, .PR_reboot), (89, .PR_readdir), (90, .PR_mmap), (91, .PR_munmap),
  (92, .PR_truncate), (93, .PR_ftruncate), (94, .PR_fchmod), (95, .PR_fchown),
  (96, .PR_getpriority), (97, .PR_setpriority), (98, .PR_profil), (99, .PR_statfs),
  (100, .PR_fstatfs), (101, .PR_ioperm), (102, .PR_socketcall), (103, .PR_syslog),
  (104, .PR_setitimer), (105, .PR_getitimer), (106, .PR_stat), (107, .PR_lstat),
  (108, .PR_fstat), (109, .PR_olduname), (110, .PR_iopl), (111, .PR_vhangup), (112, .PR_idle),
  (113, .PR_vm86old), (114, .PR_wait4), (115, .PR_swapoff), (116, .PR_sysinfo), (117, .PR_ipc),
  (118, .PR_fsync), (119, .PR_sigreturn), (120, .PR_clone), (121, .PR_setdomainname),
  (122, .PR_uname), (123, .PR_modify_ldt), (124, .PR_adjtimex), (125, .PR_mprotect),
  (126, .PR_sigprocmask), (127, .PR_create_module), (128, .PR_init_module),
  (129, .PR_delete_module), (130, .PR_get_kernel_syms), (131, .PR_quotactl), (132, .PR_getpgid),
  (133, .PR_fchdir), (134, .PR_bdflush), (135, .PR_sysfs), (136, .PR_personality),
  (137, .PR_afs_syscall), (138, .PR_setfsuid), (139, .PR_setfsgid), (140, .PR__llseek),
  (141, .PR_getdents), (142, .PR__newselect), (143, .PR_flock), (144, .PR_msync),
  (145, .PR_readv), (146, .PR_writev), (147, .PR_getsid), (148, .PR_fdatasync),
  (149, .PR__sysctl), (150, .PR_mlock), (151, .PR_munlock), (152, .PR_mlockall),
  (153, .PR_munlockall), (154, .PR_sched_setparam), (155, .PR_sched_getparam),
  (156, .PR_sched_setscheduler), (157, .PR_sched_getscheduler), (158, .PR_sched_yield),
  (159, .PR_sched_get_priority_max), (160, .PR_sched_get_priority_min),
  (161, .PR_sched_rr_get_interval), (162, .PR_nanosleep), (163, .PR_mremap),
  (164, .PR_setresuid), (165, .PR_getresuid), (166, .PR_vm86), (167, .PR_query_module),
  (168, .PR_poll), (169, .PR_nfsservctl), (170, .PR_setresgid), (171, .PR_getresgid),
  (172, .PR_prctl), (173, .PR_rt_sigreturn), (174, .PR_rt_sigaction), (175, .PR_rt_sigprocmask),
  (176, .PR_rt_sigpending), (177, .PR_rt_sigtimedwait), (178, .PR_rt_sigqueueinfo),
  (179, .PR_rt_sigsuspend), (180, .PR_pread64), (181, .PR_pwrite64), (182, .PR_chown),
  (183, .PR_getcwd), (184, .PR_capget), (185, .PR_capset), (186, .PR_sigaltstack),
  (187, .PR_sendfile), (188, .PR_getpmsg), (189, .PR_putpmsg), (190, .PR_vfork),
  (191, .PR_ugetrlimit), (192, .PR_mmap2), (193, .PR_truncate64), (194, .PR_ftruncate64),
  (195, .PR_stat64), (196, .PR_lstat64), (197, .PR_fstat64), (198, .PR_lchown32),
  (199, .PR_getuid32), (200, .PR_getgid32), (201, .PR_geteuid32), (202, .PR_getegid32),
  (203, .PR_setreuid32), (204, .PR_setregid32), (205, .PR_getgroups32), (206, .PR_setgroups32),
  (207, .PR_fchown32), (208, .PR_setresuid32), (209, .PR_getresuid32), (210, .PR_setresgid32),
  (211, .PR_getresgid32), (212, .PR_chown32), (213, .PR_setuid32), (214, .PR_setgid32),
  (215, .PR_setfsuid32), (216, .PR_setfsgid32), (217, .PR_pivot_root), (218, .PR_mincore),
  (219, .PR_madvise), (220, .PR_getdents64), (221, .PR_fcntl64), (224, .PR_gettid),
  (225, .PR_readahead), (226, .PR_setxattr), (227, .PR_lsetxattr), (228, .PR_fsetxattr),
  (229, .PR_getxattr), (230, .PR_lgetxattr), (231, .PR_fgetxattr), (232, .PR_listxattr),
  (233, .PR_llistxattr), (234, .PR_flistxattr), (235, .PR_removexattr), (236, .PR_lremovexattr),
  (237, .PR_fremovexattr), (238, .PR_tkill), (239, .PR_sendfile64), (240, .PR_futex),
  (241, .PR_sched_setaffinity), (242, .PR_sched_getaffinity), (243, .PR_set_thread_area),
  (244, .PR_get_thread_area), (245, .PR_io_setup), (246, .PR_io_destroy),
  (247, .PR_io_getevents), (248, .PR_io_submit), (249, .PR_io_cancel), (250, .PR_fadvise64),
  (252, .PR_exit_group), (253, .PR_lookup_dcookie), (254, .PR_epoll_create),
  (255, .PR_epoll_ctl), (256, .PR_epoll_wait), (257, .PR_remap_file_pages),
  (258, .PR_set_tid_address), (259, .PR_timer_create), (260, .PR_timer_settime),
  (261, .PR_timer_gettime), (262, .PR_timer_getoverrun), (263, .PR_timer_delete),
  (264, .PR_clock_settime), (265, .PR_clock_gettime), (266, .PR_clock_getres),
  (267, .PR_clock_nanosleep), (268, .PR_statfs64), (269, .PR_fstatfs64), (270, .PR_tgkill),
  (271, .PR_utimes), (272, .PR_fadvise64_64), (273, .PR_vserver), (274, .PR_mbind),
  (275, .PR_get_mempolicy), (276, .PR_set_mempolicy), (277, .PR_mq_open), (278, .PR_mq_unlink),
  (279, .PR_mq_timedsend), (280, .PR_mq_timedreceive), (281, .PR_mq_notify),
  (282, .PR_mq_getsetattr), (283, .PR_kexec_load), (284, .PR_waitid), (286, .PR_add_key),
  (287, .PR_request_key), (288, .PR_keyctl), (289, .PR_ioprio_set), (290, .PR_ioprio_get),
  (291, .PR_inotify_init), (292, .PR_inotify_add_watch), (293, .PR_inotify_rm_watch),
  (294, .PR_migrate_pages), (295, .PR_openat), (296, .PR_mkdirat), (297, .PR_mknodat),
  (298, .PR_fchownat), (299, .PR_futimesat), (300, .PR_fstatat64), (301, .PR_unlinkat),
  (302, .PR_renameat), (303, .PR_linkat), (304, .PR_symlinkat), (305, .PR_readlinkat),
  (306, .PR_fchmodat), (307, .PR_faccessat), (308, .PR_pselect6), (309, .PR_ppoll),
  (310, .PR_unshare), (311, .PR_set_robust_list), (312, .PR_get_robust_list), (313, .PR_splice),
  (314, .PR_sync_file_range), (315, .PR_tee), (316, .PR_vmsplice), (317, .PR_move_pages),
  (318, .PR_getcpu), (319, .PR_epoll_pwait), (320, .PR_utimensat), (321, .PR_signalfd),
  (322, .PR_timerfd_create), (323, .PR_eventfd), (324, .PR_fallocate),
  (325, .PR_timerfd_settime), (326, .PR_timerfd_gettime), (327, .PR_signalfd4),
  (328, .PR_eventfd2), (329, .PR_epoll_create1), (330, .PR_dup3), (331, .PR_pipe2),
  (332, .PR_inotify_init1), (333, .PR_preadv), (334, .PR_pwritev), (335, .PR_rt_tgsigqueueinfo),
  (336, .PR_perf_event_open), (337, .PR_recvmmsg), (338, .PR_fanotify_init),
  (339, .PR_fanotify_mark), (340, .PR_prlimit64), (341, .PR_name_to_handle_at),
  (342, .PR_open_by_handle_at), (343, .PR_clock_adjtime), (344, .PR_syncfs), (345, .PR_sendmmsg),
  (346, .PR_setns), (347, .PR_process_vm_readv), (348, .PR_process_vm_writev), (349, .PR_kcmp),
  (350, .PR_finit_module), (351, .PR_sched_setattr), (352, .PR_sched_getattr),
  (353, .PR_renameat2), (354, .PR_seccomp), (355, .PR_getrandom), (356, .PR_memfd_create),
  (357, .PR_bpf), (358, .PR_execveat), (359, .PR_socket), (360, .PR_socketpair), (361, .PR_bind),
  (362, .PR_connect), (363, .PR_listen), (364, .PR_accept4), (365, .PR_getsockopt),
  (366, .PR_setsockopt), (367, .PR_getsockname), (368, .PR_getpeername), (369, .PR_sendto),
  (370, .PR_sendmsg), (371, .PR_recvfrom), (372, .PR_recvmsg), (373, .PR_shutdown),
  (374, .PR_userfaultfd), (375, .PR_membarrier), (376, .PR_mlock2), (377, .PR_copy_file_range),
  (378, .PR_preadv2), (379, .PR_pwritev2), (380, .PR_pkey_mprotect), (381, .PR_pkey_alloc),
  (382, .PR_pkey_free), (383, .PR_statx), (435, .PR_clone3), (437, .PR_openat2),
  (439, .PR_faccessat2)]⟩

/-- `sysnums_x32`. -/
def sysnumsX32 : SysnumTable := ⟨[
  (0, .PR_read), (1, .PR_write), (2, .PR_open), (3, .PR_close), (4, .PR_stat), (5, .PR_fstat),
  (6, .PR_lstat), (7, .PR_poll), (8, .PR_lseek), (9, .PR_mmap), (10, .PR_mprotect),
  (11, .PR_munmap), (12, .PR_brk), (14, .PR_rt_sigprocmask), (17, .PR_pread64),
  (18, .PR_pwrite64), (21, .PR_access), (22, .PR_pipe), (23, .PR_select), (24, .PR_sched_yield),
  (25, .PR_mremap), (26, .PR_msync), (27, .PR_mincore), (28, .PR_madvise), (29, .PR_shmget),
  (30, .PR_shmat), (31, .PR_shmctl), (32, .PR_dup), (33, .PR_dup2), (34, .PR_pause),
  (35, .PR_nanosleep), (36, .PR_getitimer), (37, .PR_alarm), (38, .PR_setitimer),
  (39, .PR_getpid), (40, .PR_sendfile), (41, .PR_socket), (42, .PR_connect), (43, .PR_accept),
  (44, .PR_sendto), (48, .PR_shutdown), (49, .PR_bind), (50, .PR_listen), (51, .PR_getsockname),
  (52, .PR_getpeername), (53, .PR_socketpair), (56, .PR_clone), (57, .PR_fork), (58, .PR_vfork),
  (60, .PR_exit), (61, .PR_wait4), (62, .PR_kill), (63, .PR_uname), (64, .PR_semget),
  (65, .PR_semop), (66, .PR_semctl), (67, .PR_shmdt), (68, .PR_msgget), (69, .PR_msgsnd),
  (70, .PR_msgrcv), (71, .PR_msgctl), (72, .PR_fcntl), (73, .PR_flock), (74, .PR_fsync),
  (75, .PR_fdatasync), (76, .PR_truncate), (77, .PR_ftruncate), (78, .PR_getdents),
  (79, .PR_getcwd), (80, .PR_chdir), (81, .PR_fchdir), (82, .PR_rename), (83, .PR_mkdir),
  (84, .PR_rmdir), (85, .PR_creat), (86, .PR_link), (87, .PR_unlink), (88, .PR_symlink),
  (89, .PR_readlink), (90, .PR_chmod), (91, .PR_fchmod), (92, .PR_chown), (93, .PR_fchown),
  (94, .PR_lchown), (95, .PR_umask), (96, .PR_gettimeofday), (97, .PR_getrlimit),
  (98, .PR_getrusage), (99, .PR_sysinfo), (100, .PR_times), (102, .PR_getuid), (103, .PR_syslog),
  (104, .PR_getgid), (105, .PR_setuid), (106, .PR_setgid), (107, .PR_geteuid),
  (108, .PR_getegid), (109, .PR_setpgid), (110, .PR_getppid), (111, .PR_getpgrp),
  (112, .PR_setsid), (113, .PR_setreuid), (114, .PR_setregid), (115, .PR_getgroups),
  (116, .PR_setgroups), (117, .PR_setresuid), (118, .PR_getresuid), (119, .PR_setresgid),
  (120, .PR_getresgid), (121, .PR_getpgid), (122, .PR_setfsuid), (123, .PR_setfsgid),
  (124, .PR_getsid), (125, .PR_capget), (126, .PR_capset), (130, .PR_rt_sigsuspend),
  (132, .PR_utime), (133, .PR_mknod), (135, .PR_personality), (136, .PR_ustat),
  (137, .PR_statfs), (138, .PR_fstatfs), (139, .PR_sysfs), (140, .PR_getpriority),
  (141, .PR_setpriority), (142, .PR_sched_setparam), (143, .PR_sched_getparam),
  (144, .PR_sched_setscheduler), (145, .PR_sched_getscheduler),
  (146, .PR_sched_get_priority_max), (147, .PR_sched_get_priority_min),
  (148, .PR_sched_rr_get_interval), (149, .PR_mlock), (150, .PR_munlock), (151, .PR_mlockall),
  (152, .PR_munlockall), (153, .PR_vhangup), (154, .PR_modify_ldt), (155, .PR_pivot_root),
  (157, .PR_prctl), (158, .PR_arch_prctl), (159, .PR_adjtimex), (160, .PR_setrlimit),
  (161, .PR_chroot), (162, .PR_sync), (163, .PR_acct), (164, .PR_settimeofday), (165, .PR_mount),
  (166, .PR_umount2), (167, .PR_swapon), (168, .PR_swapoff), (169, .PR_reboot),
  (170, .PR_sethostname), (171, .PR_setdomainname), (172, .PR_iopl), (173, .PR_ioperm),
  (175, .PR_init_module), (176, .PR_delete_module), (179, .PR_quotactl), (181, .PR_getpmsg),
  (182, .PR_putpmsg), (183, .PR_afs_syscall), (184, .PR_tuxcall), (185, .PR_security),
  (186, .PR_gettid), (187, .PR_readahead), (188, .PR_setxattr), (189, .PR_lsetxattr),
  (190, .PR_fsetxattr), (191, .PR_getxattr), (192, .PR_lgetxattr), (193, .PR_fgetxattr),
  (194, .PR_listxattr), (195, .PR_llistxattr), (196, .PR_flistxattr), (197, .PR_removexattr),
  (198, .PR_lremovexattr), (199, .PR_fremovexattr), (200, .PR_tkill), (201, .PR_time),
  (202, .PR_futex), (203, .PR_sched_setaffinity), (204, .PR_sched_getaffinity),
  (206, .PR_io_setup), (207, .PR_io_destroy), (208, .PR_io_getevents), (209, .PR_io_submit),
  (210, .PR_io_cancel), (212, .PR_lookup_dcookie), (213, .PR_epoll_create),
  (216, .PR_remap_file_pages), (217, .PR_getdents64), (218, .PR_set_tid_address),
  (219, .PR_restart_syscall), (220, .PR_semtimedop), (221, .PR_fadvise64),
  (223, .PR_timer_settime), (224, .PR_timer_gettime), (225, .PR_timer_getoverrun),
  (226, .PR_timer_delete), (227, .PR_clock_settime), (228, .PR_clock_gettime),
  (229, .PR_clock_getres), (230, .PR_clock_nanosleep), (231, .PR_exit_group),
  (232, .PR_epoll_wait), (233, .PR_epoll_ctl), (234, .PR_tgkill), (235, .PR_utimes),
  (237, .PR_mbind), (238, .PR_set_mempolicy), (239, .PR_get_mempolicy), (240, .PR_mq_open),
  (241, .PR_mq_unlink), (242, .PR_mq_timedsend), (243, .PR_mq_timedreceive),
  (245, .PR_mq_getsetattr), (248, .PR_add_key), (249, .PR_request_key), (250, .PR_keyctl),
  (251, .PR_ioprio_set), (252, .PR_ioprio_get), (253, .PR_inotify_init),
  (254, .PR_inotify_add_watch), (255, .PR_inotify_rm_watch), (256, .PR_migrate_pages),
  (257, .PR_openat), (258, .PR_mkdirat), (259, .PR_mknodat), (260, .PR_fchownat),
  (261, .PR_futimesat), (262, .PR_newfstatat), (263, .PR_unlinkat), (264, .PR_renameat),
  (265, .PR_linkat), (266, .PR_symlinkat), (267, .PR_readlinkat), (268, .PR_fchmodat),
  (269, .PR_faccessat), (270, .PR_pselect6), (271, .PR_ppoll), (272, .PR_unshare),
  (275, .PR_splice), (276, .PR_tee), (277, .PR_sync_file_range), (280, .PR_utimensat),
  (281, .PR_epoll_pwait), (282, .PR_signalfd), (283, .PR_timerfd_create), (284, .PR_eventfd),
  (285, .PR_fallocate), (286, .PR_timerfd_settime), (287, .PR_timerfd_gettime),
  (288, .PR_accept4), (289, .PR_signalfd4), (290, .PR_eventfd2), (291, .PR_epoll_create1),
  (292, .PR_dup3), (293, .PR_pipe2), (294, .PR_inotify_init1), (298, .PR_perf_event_open),
  (300, .PR_fanotify_init), (301, .PR_fanotify_mark), (302, .PR_prlimit64),
  (303, .PR_name_to_handle_at), (304, .PR_open_by_handle_at), (305, .PR_clock_adjtime),
  (306, .PR_syncfs), (308, .PR_setns), (309, .PR_getcpu), (312, .PR_kcmp), (316, .PR_renameat2),
  (435, .PR_clone3), (437, .PR_openat2), (512, .PR_rt_sigaction), (513, .PR_rt_sigreturn),
  (514, .PR_ioctl), (515, .PR_readv), (516, .PR_writev), (517, .PR_recvfrom), (518, .PR_sendmsg),
  (519, .PR_recvmsg), (520, .PR_execve), (521, .PR_ptrace), (522, .PR_rt_sigpending),
  (523, .PR_rt_sigtimedwait), (524, .PR_rt_sigqueueinfo), (525, .PR_sigaltstack),
  (526, .PR_timer_create), (527, .PR_mq_notify), (528, .PR_kexec_load), (529, .PR_waitid),
  (530, .PR_set_robust_list), (531, .PR_get_robust_list), (532, .PR_vmsplice),
  (533, .PR_move_pages), (534, .PR_preadv), (535, .PR_pwritev), (536, .PR_rt_tgsigqueueinfo),
  (537, .PR_recvmmsg), (538, .PR_sendmmsg), (539, .PR_process_vm_readv),
  (540, .PR_process_vm_writev), (541, .PR_setsockopt), (542, .PR_getsockopt)]⟩

/-- `sysnums_arm`. -/
def sysnumsArm : SysnumTable := ⟨[
  (0, .PR_restart_syscall), (1, .PR_exit), (2, .PR_fork), (3, .PR_read), (4, .PR_write),
  (5, .PR_open), (6, .PR_close), (8, .PR_creat), (9, .PR_link), (10, .PR_unlink),
  (11, .PR_execve), (12, .PR_chdir), (14, .PR_mknod), (15, .PR_chmod), (16, .PR_lchown),
  (19, .PR_lseek), (20, .PR_getpid), (21, .PR_mount), (23, .PR_setuid), (24, .PR_getuid),
  (26, .PR_ptrace), (29, .PR_pause), (30, .PR_utime), (33, .PR_access), (34, .PR_nice),
  (36, .PR_sync), (37, .PR_kill), (38, .PR_rename), (39, .PR_mkdir), (40, .PR_rmdir),
  (41, .PR_dup), (42, .PR_pipe), (43, .PR_times), (45, .PR_brk), (46, .PR_setgid),
  (47, .PR_getgid), (49, .PR_geteuid), (50, .PR_getegid), (51, .PR_acct), (52, .PR_umount2),
  (54, .PR_ioctl), (55, .PR_fcntl), (57, .PR_setpgid), (60, .PR_umask), (61, .PR_chroot),
  (62, .PR_ustat), (63, .PR_dup2), (64, .PR_getppid), (65, .PR_getpgrp), (66, .PR_setsid),
  (67, .PR_sigaction), (70, .PR_setreuid), (71, .PR_setregid), (72, .PR_sigsuspend),
  (73, .PR_sigpending), (74, .PR_sethostname), (75, .PR_setrlimit), (77, .PR_getrusage),
  (78, .PR_gettimeofday), (79, .PR_settimeofday), (80, .PR_getgroups), (81, .PR_setgroups),
  (83, .PR_symlink), (85, .PR_readlink), (86, .PR_uselib), (87, .PR_swapon), (88, .PR_reboot),
  (91, .PR_munmap), (92, .PR_truncate), (93, .PR_ftruncate), (94, .PR_fchmod), (95, .PR_fchown),
  (96, .PR_getpriority), (97, .PR_setpriority), (99, .PR_statfs), (100, .PR_fstatfs),
  (103, .PR_syslog), (104, .PR_setitimer), (105, .PR_getitimer), (106, .PR_stat),
  (107, .PR_lstat), (108, .PR_fstat), (111, .PR_vhangup), (114, .PR_wait4), (115, .PR_swapoff),
  (116, .PR_sysinfo), (118, .PR_fsync), (119, .PR_sigreturn), (120, .PR_clone),
  (121, .PR_setdomainname), (122, .PR_uname), (124, .PR_adjtimex), (125, .PR_mprotect),
  (126, .PR_sigprocmask), (128, .PR_init_module), (129, .PR_delete_module), (131, .PR_quotactl),
  (132, .PR_getpgid), (133, .PR_fchdir), (134, .PR_bdflush), (135, .PR_sysfs),
  (136, .PR_personality), (138, .PR_setfsuid), (139, .PR_setfsgid), (140, .PR__llseek),
  (141, .PR_getdents), (142, .PR__newselect), (143, .PR_flock), (144, .PR_msync),
  (145, .PR_readv), (146, .PR_writev), (147, .PR_getsid), (148, .PR_fdatasync),
  (149, .PR__sysctl), (150, .PR_mlock), (151, .PR_munlock), (152, .PR_mlockall),
  (153, .PR_munlockall), (154, .PR_sched_setparam), (155, .PR_sched_getparam),
  (156, .PR_sched_setscheduler), (157, .PR_sched_getscheduler), (158, .PR_sched_yield),
  (159, .PR_sched_get_priority_max), (160, .PR_sched_get_priority_min),
  (161, .PR_sched_rr_get_interval), (162, .PR_nanosleep), (163, .PR_mremap),
  (164, .PR_setresuid), (165, .PR_getresuid), (168, .PR_poll), (169, .PR_nfsservctl),
  (170, .PR_setresgid), (171, .PR_getresgid), (172, .PR_prctl), (173, .PR_rt_sigreturn),
  (174, .PR_rt_sigaction), (175, .PR_rt_sigprocmask), (176, .PR_rt_sigpending),
  (177, .PR_rt_sigtimedwait), (178, .PR_rt_sigqueueinfo), (179, .PR_rt_sigsuspend),
  (180, .PR_pread64), (181, .PR_pwrite64), (182, .PR_chown), (183, .PR_getcwd),
  (184, .PR_capget), (185, .PR_capset), (186, .PR_sigaltstack), (187, .PR_sendfile),
  (190, .PR_vfork), (191, .PR_ugetrlimit), (192, .PR_mmap2), (193, .PR_truncate64),
  (194, .PR_ftruncate64), (195, .PR_stat64), (196, .PR_lstat64), (197, .PR_fstat64),
  (198, .PR_lchown32), (199, .PR_getuid32), (200, .PR_getgid32), (201, .PR_geteuid32),
  (202, .PR_getegid32), (203, .PR_setreuid32), (204, .PR_setregid32), (205, .PR_getgroups32),
  (206, .PR_setgroups32), (207, .PR_fchown32), (208, .PR_setresuid32), (209, .PR_getresuid32),
  (210, .PR_setresgid32), (211, .PR_getresgid32), (212, .PR_chown32), (213, .PR_setuid32),
  (214, .PR_setgid32), (215, .PR_setfsuid32), (216, .PR_setfsgid32), (217, .PR_getdents64),
  (218, .PR_pivot_root), (219, .PR_mincore), (220, .PR_madvise), (221, .PR_fcntl64),
  (222, .PR_void), (224, .PR_gettid), (225, .PR_readahead), (226, .PR_setxattr),
  (227, .PR_lsetxattr), (228, .PR_fsetxattr), (229, .PR_getxattr), (230, .PR_lgetxattr),
  (231, .PR_fgetxattr), (232, .PR_listxattr), (233, .PR_llistxattr), (234, .PR_flistxattr),
  (235, .PR_removexattr), (236, .PR_lremovexattr), (237, .PR_fremovexattr), (238, .PR_tkill),
  (239, .PR_sendfile64), (240, .PR_futex), (241, .PR_sched_setaffinity),
  (242, .PR_sched_getaffinity), (243, .PR_io_setup), (244, .PR_io_destroy),
  (245, .PR_io_getevents), (246, .PR_io_submit), (247, .PR_io_cancel), (248, .PR_exit_group),
  (249, .PR_lookup_dcookie), (250, .PR_epoll_create), (251, .PR_epoll_ctl),
  (252, .PR_epoll_wait), (253, .PR_remap_file_pages), (256, .PR_set_tid_address),
  (257, .PR_timer_create), (258, .PR_timer_settime), (259, .PR_timer_gettime),
  (260, .PR_timer_getoverrun), (261, .PR_timer_delete), (262, .PR_clock_settime),
  (263, .PR_clock_gettime), (264, .PR_clock_getres), (265, .PR_clock_nanosleep),
  (266, .PR_statfs64), (267, .PR_fstatfs64), (268, .PR_tgkill), (269, .PR_utimes),
  (270, .PR_arm_fadvise64_64), (271, .PR_pciconfig_iobase), (272, .PR_pciconfig_read),
  (273, .PR_pciconfig_write), (274, .PR_mq_open), (275, .PR_mq_unlink), (276, .PR_mq_timedsend),
  (277, .PR_mq_timedreceive), (278, .PR_mq_notify), (279, .PR_mq_getsetattr), (280, .PR_waitid),
  (281, .PR_socket), (282, .PR_bind), (283, .PR_connect), (284, .PR_listen), (285, .PR_accept),
  (286, .PR_getsockname), (287, .PR_getpeername), (288, .PR_socketpair), (289, .PR_send),
  (290, .PR_sendto), (291, .PR_recv), (292, .PR_recvfrom), (293, .PR_shutdown),
  (294, .PR_setsockopt), (295, .PR_getsockopt), (296, .PR_sendmsg), (297, .PR_recvmsg),
  (298, .PR_semop), (299, .PR_semget), (300, .PR_semctl), (301, .PR_msgsnd), (302, .PR_msgrcv),
  (303, .PR_msgget), (304, .PR_msgctl), (305, .PR_shmat), (306, .PR_shmdt), (307, .PR_shmget),
  (308, .PR_shmctl), (309, .PR_add_key), (310, .PR_request_key), (311, .PR_keyctl),
  (312, .PR_semtimedop), (313, .PR_vserver), (314, .PR_ioprio_set), (315, .PR_ioprio_get),
  (316, .PR_inotify_init), (317, .PR_inotify_add_watch), (318, .PR_inotify_rm_watch),
  (319, .PR_mbind), (320, .PR_get_mempolicy), (321, .PR_set_mempolicy), (322, .PR_openat),
  (323, .PR_mkdirat), (324, .PR_mknodat), (325, .PR_fchownat), (326, .PR_futimesat),
  (327, .PR_fstatat64), (328, .PR_unlinkat), (329, .PR_renameat), (330, .PR_linkat),
  (331, .PR_symlinkat), (332, .PR_readlinkat), (333, .PR_fchmodat), (334, .PR_faccessat),
  (335, .PR_pselect6), (336, .PR_ppoll), (337, .PR_unshare), (338, .PR_set_robust_list),
  (339, .PR_get_robust_list), (340, .PR_splice), (341, .PR_arm_sync_file_range), (342, .PR_tee),
  (343, .PR_vmsplice), (344, .PR_move_pages), (345, .PR_getcpu), (346, .PR_epoll_pwait),
  (347, .PR_kexec_load), (348, .PR_utimensat), (349, .PR_signalfd), (350, .PR_timerfd_create),
  (351, .PR_eventfd), (352, .PR_fallocate), (353, .PR_timerfd_settime),
  (354, .PR_timerfd_gettime), (355, .PR_signalfd4), (356, .PR_eventfd2),
  (357, .PR_epoll_create1), (358, .PR_dup3), (359, .PR_pipe2), (360, .PR_inotify_init1),
  (361, .PR_preadv), (362, .PR_pwritev), (363, .PR_rt_tgsigqueueinfo),
  (364, .PR_perf_event_open), (365, .PR_recvmmsg), (366, .PR_accept4), (367, .PR_fanotify_init),
  (368, .PR_fanotify_mark), (369, .PR_prlimit64), (370, .PR_name_to_handle_at),
  (371, .PR_open_by_handle_at), (372, .PR_clock_adjtime), (373, .PR_syncfs), (374, .PR_sendmmsg),
  (375, .PR_setns), (376, .PR_process_vm_readv), (377, .PR_process_vm_writev), (378, .PR_kcmp),
  (379, .PR_finit_module), (380, .PR_sched_setattr), (381, .PR_sched_getattr),
  (382, .PR_renameat2), (383, .PR_seccomp), (384, .PR_getrandom), (385, .PR_memfd_create),
  (386, .PR_bpf), (387, .PR_execveat), (388, .PR_userfaultfd), (389, .PR_membarrier),
  (390, .PR_mlock2), (391, .PR_copy_file_range), (392, .PR_preadv2), (393, .PR_pwritev2),
  (394, .PR_pkey_mprotect), (395, .PR_pkey_alloc), (396, .PR_pkey_free), (397, .PR_statx),
  (439, .PR_faccessat2), (435, .PR_clone3), (437, .PR_openat2)]⟩

/-- `sysnums_arm64`. -/
def sysnumsArm64 : SysnumTable := ⟨[
  (0, .PR_io_setup), (1, .PR_io_destroy), (2, .PR_io_submit), (3, .PR_io_cancel),
  (4, .PR_io_getevents), (5, .PR_setxattr), (6, .PR_lsetxattr), (7, .PR_fsetxattr),
  (8, .PR_getxattr), (9, .PR_lgetxattr), (10, .PR_fgetxattr), (11, .PR_listxattr),
  (12, .PR_llistxattr), (13, .PR_flistxattr), (14, .PR_removexattr), (15, .PR_lremovexattr),
  (16, .PR_fremovexattr), (17, .PR_getcwd), (18, .PR_lookup_dcookie), (19, .PR_eventfd2),
  (20, .PR_epoll_create1), (21, .PR_epoll_ctl), (22, .PR_epoll_pwait), (23, .PR_dup),
  (24, .PR_dup3), (25, .PR_fcntl), (26, .PR_inotify_init1), (27, .PR_inotify_add_watch),
  (28, .PR_inotify_rm_watch), (29, .PR_ioctl), (30, .PR_ioprio_set), (31, .PR_ioprio_get),
  (32, .PR_flock), (33, .PR_mknodat), (34, .PR_mkdirat), (35, .PR_unlinkat), (36, .PR_symlinkat),
  (37, .PR_linkat), (38, .PR_renameat), (39, .PR_umount2), (40, .PR_mount), (41, .PR_pivot_root),
  (42, .PR_nfsservctl), (43, .PR_statfs), (44, .PR_fstatfs), (45, .PR_truncate),
  (46, .PR_ftruncate), (47, .PR_fallocate), (48, .PR_faccessat), (49, .PR_chdir),
  (50, .PR_fchdir), (51, .PR_chroot), (52, .PR_fchmod), (53, .PR_fchmodat), (54, .PR_fchownat),
  (55, .PR_fchown), (56, .PR_openat), (57, .PR_close), (58, .PR_vhangup), (59, .PR_pipe2),
  (60, .PR_quotactl), (61, .PR_getdents64), (62, .PR_lseek), (63, .PR_read), (64, .PR_write),
  (65, .PR_readv), (66, .PR_writev), (67, .PR_pread64), (68, .PR_pwrite64), (69, .PR_preadv),
  (70, .PR_pwritev), (71, .PR_sendfile), (72, .PR_pselect6), (73, .PR_ppoll),
  (74, .PR_signalfd4), (75, .PR_vmsplice), (76, .PR_splice), (77, .PR_tee), (78, .PR_readlinkat),
  (79, .PR_fstatat64), (80, .PR_fstat), (81, .PR_sync), (82, .PR_fsync), (83, .PR_fdatasync),
  (84, .PR_sync_file_range), (85, .PR_timerfd_create), (86, .PR_timerfd_settime),
  (87, .PR_timerfd_gettime), (88, .PR_utimensat), (89, .PR_acct), (90, .PR_capget),
  (91, .PR_capset), (92, .PR_personality), (93, .PR_exit), (94, .PR_exit_group),
  (95, .PR_waitid), (96, .PR_set_tid_address), (97, .PR_unshare), (98, .PR_futex),
  (99, .PR_set_robust_list), (100, .PR_get_robust_list), (101, .PR_nanosleep),
  (102, .PR_getitimer), (103, .PR_setitimer), (104, .PR_kexec_load), (105, .PR_init_module),
  (106, .PR_delete_module), (107, .PR_timer_create), (108, .PR_timer_gettime),
  (109, .PR_timer_getoverrun), (110, .PR_timer_settime), (111, .PR_timer_delete),
  (112, .PR_clock_settime), (113, .PR_clock_gettime), (114, .PR_clock_getres),
  (115, .PR_clock_nanosleep), (116, .PR_syslog), (117, .PR_ptrace), (118, .PR_sched_setparam),
  (119, .PR_sched_setscheduler), (120, .PR_sched_getscheduler), (121, .PR_sched_getparam),
  (122, .PR_sched_setaffinity), (123, .PR_sched_getaffinity), (124, .PR_sched_yield),
  (125, .PR_sched_get_priority_max), (126, .PR_sched_get_priority_min),
  (127, .PR_sched_rr_get_interval), (128, .PR_restart_syscall), (129, .PR_kill),
  (130, .PR_tkill), (131, .PR_tgkill), (132, .PR_sigaltstack), (133, .PR_rt_sigsuspend),
  (134, .PR_rt_sigaction), (135, .PR_rt_sigprocmask), (136, .PR_rt_sigpending),
  (137, .PR_rt_sigtimedwait), (138, .PR_rt_sigqueueinfo), (139, .PR_rt_sigreturn),
  (140, .PR_setpriority), (141, .PR_getpriority), (142, .PR_reboot), (143, .PR_setregid),
  (144, .PR_setgid), (145, .PR_setreuid), (146, .PR_setuid), (147, .PR_setresuid),
  (148, .PR_getresuid), (149, .PR_setresgid), (150, .PR_getresgid), (151, .PR_setfsuid),
  (152, .PR_setfsgid), (153, .PR_times), (154, .PR_setpgid), (155, .PR_getpgid),
  (156, .PR_getsid), (157, .PR_setsid), (158, .PR_getgroups), (159, .PR_setgroups),
  (160, .PR_uname), (161, .PR_sethostname), (162, .PR_setdomainname), (163, .PR_getrlimit),
  (164, .PR_setrlimit), (165, .PR_getrusage), (166, .PR_umask), (167, .PR_prctl),
  (168, .PR_getcpu), (169, .PR_gettimeofday), (170, .PR_settimeofday), (171, .PR_adjtimex),
  (172, .PR_getpid), (173, .PR_getppid), (174, .PR_getuid), (175, .PR_geteuid),
  (176, .PR_getgid), (177, .PR_getegid), (178, .PR_gettid), (179, .PR_sysinfo),
  (180, .PR_mq_open), (181, .PR_mq_unlink), (182, .PR_mq_timedsend), (183, .PR_mq_timedreceive),
  (184, .PR_mq_notify), (185, .PR_mq_getsetattr), (186, .PR_msgget), (187, .PR_msgctl),
  (188, .PR_msgrcv), (189, .PR_msgsnd), (190, .PR_semget), (191, .PR_semctl),
  (192, .PR_semtimedop), (193, .PR_semop), (194, .PR_shmget), (195, .PR_shmctl),
  (196, .PR_shmat), (197, .PR_shmdt), (198, .PR_socket), (199, .PR_socketpair), (200, .PR_bind),
  (201, .PR_listen), (202, .PR_accept), (203, .PR_connect), (204, .PR_getsockname),
  (205, .PR_getpeername), (206, .PR_sendto), (207, .PR_recvfrom), (208, .PR_setsockopt),
  (209, .PR_getsockopt), (210, .PR_shutdown), (211, .PR_sendmsg), (212, .PR_recvmsg),
  (213, .PR_readahead), (214, .PR_brk), (215, .PR_munmap), (216, .PR_mremap), (217, .PR_add_key),
  (218, .PR_request_key), (219, .PR_keyctl), (220, .PR_clone), (221, .PR_execve),
  (222, .PR_mmap), (223, .PR_fadvise64), (224, .PR_swapon), (225, .PR_swapoff),
  (226, .PR_mprotect), (227, .PR_msync), (228, .PR_mlock), (229, .PR_munlock),
  (230, .PR_mlockall), (231, .PR_munlockall), (232, .PR_mincore), (233, .PR_madvise),
  (234, .PR_remap_file_pages), (235, .PR_mbind), (236, .PR_get_mempolicy),
  (237, .PR_set_mempolicy), (238, .PR_migrate_pages), (239, .PR_move_pages),
  (240, .PR_rt_tgsigqueueinfo), (241, .PR_perf_event_open), (242, .PR_accept4),
  (243, .PR_recvmmsg), (244, .PR_arch_specific_syscall), (260, .PR_wait4), (261, .PR_prlimit64),
  (262, .PR_fanotify_init), (263, .PR_fanotify_mark), (264, .PR_name_to_handle_at),
  (265, .PR_open_by_handle_at), (266, .PR_clock_adjtime), (267, .PR_syncfs), (268, .PR_setns),
  (269, .PR_sendmmsg), (270, .PR_process_vm_readv), (271, .PR_process_vm_writev),
  (272, .PR_kcmp), (273, .PR_finit_module), (274, .PR_sched_setattr), (275, .PR_sched_getattr),
  (276, .PR_renameat2), (277, .PR_seccomp), (278, .PR_getrandom), (279, .PR_memfd_create),
  (280, .PR_bpf), (281, .PR_execveat), (282, .PR_userfaultfd), (283, .PR_membarrier),
  (284, .PR_mlock2), (285, .PR_copy_file_range), (286, .PR_preadv2), (287, .PR_pwritev2),
  (288, .PR_pkey_mprotect), (289, .PR_pkey_alloc), (290, .PR_pkey_free), (291, .PR_statx),
  (435, .PR_clone3), (437, .PR_openat2), (439, .PR_faccessat2)]⟩

/-- `sysnums_sh4`. -/
def sysnumsSh4 : SysnumTable := ⟨[
  (0, .PR_restart_syscall), (1, .PR_exit), (2, .PR_fork), (3, .PR_read), (4, .PR_write),
  (5, .PR_open), (6, .PR_close), (7, .PR_waitpid), (8, .PR_creat), (9, .PR_link),
  (10, .PR_unlink), (11, .PR_execve), (12, .PR_chdir), (13, .PR_time), (14, .PR_mknod),
  (15, .PR_chmod), (16, .PR_lchown), (18, .PR_oldstat), (19, .PR_lseek), (20, .PR_getpid),
  (21, .PR_mount), (22, .PR_umount), (23, .PR_setuid), (24, .PR_getuid), (25, .PR_stime),
  (26, .PR_ptrace), (27, .PR_alarm), (28, .PR_oldfstat), (29, .PR_pause), (30, .PR_utime),
  (33, .PR_access), (34, .PR_nice), (36, .PR_sync), (37, .PR_kill), (38, .PR_rename),
  (39, .PR_mkdir), (40, .PR_rmdir), (41, .PR_dup), (42, .PR_pipe), (43, .PR_times),
  (45, .PR_brk), (46, .PR_setgid), (47, .PR_getgid), (48, .PR_signal), (49, .PR_geteuid),
  (50, .PR_getegid), (51, .PR_acct), (52, .PR_umount2), (54, .PR_ioctl), (55, .PR_fcntl),
  (57, .PR_setpgid), (60, .PR_umask), (61, .PR_chroot), (62, .PR_ustat), (63, .PR_dup2),
  (64, .PR_getppid), (65, .PR_getpgrp), (66, .PR_setsid), (67, .PR_sigaction),
  (68, .PR_sgetmask), (69, .PR_ssetmask), (70, .PR_setreuid), (71, .PR_setregid),
  (72, .PR_sigsuspend), (73, .PR_sigpending), (74, .PR_sethostname), (75, .PR_setrlimit),
  (76, .PR_getrlimit), (77, .PR_getrusage), (78, .PR_gettimeofday), (79, .PR_settimeofday),
  (80, .PR_getgroups), (81, .PR_setgroups), (83, .PR_symlink), (84, .PR_oldlstat),
  (85, .PR_readlink), (86, .PR_uselib), (87, .PR_swapon), (88, .PR_reboot), (89, .PR_readdir),
  (90, .PR_mmap), (91, .PR_munmap), (92, .PR_truncate), (93, .PR_ftruncate), (94, .PR_fchmod),
  (95, .PR_fchown), (96, .PR_getpriority), (97, .PR_setpriority), (99, .PR_statfs),
  (100, .PR_fstatfs), (102, .PR_socketcall), (103, .PR_syslog), (104, .PR_setitimer),
  (105, .PR_getitimer), (106, .PR_stat), (107, .PR_lstat), (108, .PR_fstat), (109, .PR_olduname),
  (111, .PR_vhangup), (114, .PR_wait4), (115, .PR_swapoff), (116, .PR_sysinfo), (117, .PR_ipc),
  (118, .PR_fsync), (119, .PR_sigreturn), (120, .PR_clone), (121, .PR_setdomainname),
  (122, .PR_uname), (123, .PR_cacheflush), (124, .PR_adjtimex), (125, .PR_mprotect),
  (126, .PR_sigprocmask), (128, .PR_init_module), (129, .PR_delete_module), (131, .PR_quotactl),
  (132, .PR_getpgid), (133, .PR_fchdir), (134, .PR_bdflush), (135, .PR_sysfs),
  (136, .PR_personality), (138, .PR_setfsuid), (139, .PR_setfsgid), (140, .PR__llseek),
  (141, .PR_getdents), (142, .PR__newselect), (143, .PR_flock), (144, .PR_msync),
  (145, .PR_readv), (146, .PR_writev), (147, .PR_getsid), (148, .PR_fdatasync),
  (149, .PR__sysctl), (150, .PR_mlock), (151, .PR_munlock), (152, .PR_mlockall),
  (153, .PR_munlockall), (154, .PR_sched_setparam), (155, .PR_sched_getparam),
  (156, .PR_sched_setscheduler), (157, .PR_sched_getscheduler), (158, .PR_sched_yield),
  (159, .PR_sched_get_priority_max), (160, .PR_sched_get_priority_min),
  (161, .PR_sched_rr_get_interval), (162, .PR_nanosleep), (163, .PR_mremap),
  (164, .PR_setresuid), (165, .PR_getresuid), (168, .PR_poll), (169, .PR_nfsservctl),
  (170, .PR_setresgid), (171, .PR_getresgid), (172, .PR_prctl), (173, .PR_rt_sigreturn),
  (174, .PR_rt_sigaction), (175, .PR_rt_sigprocmask), (176, .PR_rt_sigpending),
  (177, .PR_rt_sigtimedwait), (178, .PR_rt_sigqueueinfo), (179, .PR_rt_sigsuspend),
  (180, .PR_pread64), (181, .PR_pwrite64), (182, .PR_chown), (183, .PR_getcwd),
  (184, .PR_capget), (185, .PR_capset), (186, .PR_sigaltstack), (187, .PR_sendfile),
  (190, .PR_vfork), (191, .PR_ugetrlimit), (192, .PR_mmap2), (193, .PR_truncate64),
  (194, .PR_ftruncate64), (195, .PR_stat64), (196, .PR_lstat64), (197, .PR_fstat64),
  (198, .PR_lchown32), (199, .PR_getuid32), (200, .PR_getgid32), (201, .PR_geteuid32),
  (202, .PR_getegid32), (203, .PR_setreuid32), (204, .PR_setregid32), (205, .PR_getgroups32),
  (206, .PR_setgroups32), (207, .PR_fchown32), (208, .PR_setresuid32), (209, .PR_getresuid32),
  (210, .PR_setresgid32), (211, .PR_getresgid32), (212, .PR_chown32), (213, .PR_setuid32),
  (214, .PR_setgid32), (215, .PR_setfsuid32), (216, .PR_setfsgid32), (217, .PR_pivot_root),
  (218, .PR_mincore), (219, .PR_madvise), (220, .PR_getdents64), (221, .PR_fcntl64),
  (224, .PR_gettid), (225, .PR_readahead), (226, .PR_setxattr), (227, .PR_lsetxattr),
  (228, .PR_fsetxattr), (229, .PR_getxattr), (230, .PR_lgetxattr), (231, .PR_fgetxattr),
  (232, .PR_listxattr), (233, .PR_llistxattr), (234, .PR_flistxattr), (235, .PR_removexattr),
  (236, .PR_lremovexattr), (237, .PR_fremovexattr), (238, .PR_tkill), (239, .PR_sendfile64),
  (240, .PR_futex), (241, .PR_sched_setaffinity), (242, .PR_sched_getaffinity),
  (245, .PR_io_setup), (246, .PR_io_destroy), (247, .PR_io_getevents), (248, .PR_io_submit),
  (249, .PR_io_cancel), (250, .PR_fadvise64), (252, .PR_exit_group), (253, .PR_lookup_dcookie),
  (254, .PR_epoll_create), (255, .PR_epoll_ctl), (256, .PR_epoll_wait),
  (257, .PR_remap_file_pages), (258, .PR_set_tid_address), (259, .PR_timer_create),
  (260, .PR_timer_settime), (261, .PR_timer_gettime), (262, .PR_timer_getoverrun),
  (263, .PR_timer_delete), (264, .PR_clock_settime), (265, .PR_clock_gettime),
  (266, .PR_clock_getres), (267, .PR_clock_nanosleep), (268, .PR_statfs64), (269, .PR_fstatfs64),
  (270, .PR_tgkill), (271, .PR_utimes), (272, .PR_fadvise64_64), (274, .PR_mbind),
  (275, .PR_get_mempolicy), (276, .PR_set_mempolicy), (277, .PR_mq_open), (278, .PR_mq_unlink),
  (279, .PR_mq_timedsend), (280, .PR_mq_timedreceive), (281, .PR_mq_notify),
  (282, .PR_mq_getsetattr), (283, .PR_kexec_load), (284, .PR_waitid), (285, .PR_add_key),
  (286, .PR_request_key), (287, .PR_keyctl), (288, .PR_ioprio_set), (289, .PR_ioprio_get),
  (290, .PR_inotify_init), (291, .PR_inotify_add_watch), (292, .PR_inotify_rm_watch),
  (294, .PR_migrate_pages), (295, .PR_openat), (296, .PR_mkdirat), (297, .PR_mknodat),
  (298, .PR_fchownat), (299, .PR_futimesat), (300, .PR_fstatat64), (301, .PR_unlinkat),
  (302, .PR_renameat), (303, .PR_linkat), (304, .PR_symlinkat), (305, .PR_readlinkat),
  (306, .PR_fchmodat), (307, .PR_faccessat), (308, .PR_pselect6), (309, .PR_ppoll),
  (310, .PR_unshare), (311, .PR_set_robust_list), (312, .PR_get_robust_list), (313, .PR_splice),
  (314, .PR_sync_file_range), (315, .PR_tee), (316, .PR_vmsplice), (317, .PR_move_pages),
  (318, .PR_getcpu), (319, .PR_epoll_pwait), (320, .PR_utimensat), (321, .PR_signalfd),
  (322, .PR_timerfd_create), (323, .PR_eventfd), (324, .PR_fallocate),
  (325, .PR_timerfd_settime), (326, .PR_timerfd_gettime), (327, .PR_signalfd4),
  (328, .PR_eventfd2), (329, .PR_epoll_create1), (330, .PR_dup3), (331, .PR_pipe2),
  (332, .PR_inotify_init1), (333, .PR_preadv), (334, .PR_pwritev), (335, .PR_rt_tgsigqueueinfo),
  (336, .PR_perf_event_open), (337, .PR_fanotify_init), (338, .PR_fanotify_mark),
  (339, .PR_prlimit64), (340, .PR_socket), (341, .PR_bind), (342, .PR_connect),
  (343, .PR_listen), (344, .PR_accept), (345, .PR_getsockname), (346, .PR_getpeername),
  (347, .PR_socketpair), (348, .PR_send), (349, .PR_sendto), (350, .PR_recv),
  (351, .PR_recvfrom), (352, .PR_shutdown), (353, .PR_setsockopt), (354, .PR_getsockopt),
  (355, .PR_sendmsg), (356, .PR_recvmsg), (357, .PR_recvmmsg), (358, .PR_accept4),
  (359, .PR_name_to_handle_at), (360, .PR_open_by_handle_at), (361, .PR_clock_adjtime),
  (362, .PR_syncfs), (363, .PR_sendmmsg), (364, .PR_setns), (365, .PR_process_vm_readv),
  (366, .PR_process_vm_writev), (435, .PR_clone3), (437, .PR_openat2), (439, .PR_faccessat2)]⟩

end PRoot
